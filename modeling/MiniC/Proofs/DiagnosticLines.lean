import MiniC.Compile
import MiniC.Proofs.Token.Messages
import MiniC.Proofs.Syntax.Tidy.Unit
import MiniC.Proofs.Lowering.Tidy.Unit

/-!
The faults of a refused source, rendered one a line.

Each line tells of one fault: its category, its line and column, its message, and perhaps a snippet
of the source. The rendered text has as many lines as there are faults just when no backslash stands
in front of a line feed inside a literal; what the lexer says of that shows the line feed as it is.
-/

namespace MiniC

open Text (Cursor OneLine)

def Text.lines (text : String) : List (List Char) := text.toList.splitOn '\n'

namespace Text

theorem not_mem_of_mem_splitOn {separator : Char} {text piece : List Char}
    (listed : piece ∈ text.splitOn separator) : separator ∉ piece := by
  induction text generalizing piece with
  | nil =>
      rw [List.splitOn_nil, List.mem_singleton] at listed
      rw [listed]
      exact List.not_mem_nil
  | cons char text ih =>
      rw [List.splitOn_cons_eq_if_modifyHead] at listed
      split at listed
      · rcases List.mem_cons.mp listed with rfl | later
        · exact List.not_mem_nil
        · exact ih later
      · rename_i other
        obtain ⟨first, rest, split⟩ :=
          List.exists_cons_of_ne_nil (List.splitOn_ne_nil separator text)
        rw [split, List.modifyHead_cons] at listed
        rcases List.mem_cons.mp listed with rfl | later
        · rw [List.mem_cons]
          rintro (rfl | inside)
          · exact other (beq_self_eq_true _)
          · exact ih (split ▸ List.mem_cons_self) inside
        · exact ih (split ▸ List.mem_cons_of_mem first later)

/-- Texts on one line each, with line feeds between them, are read back line by line. -/
theorem lines_intercalate {texts : List String} (some : texts ≠ [])
    (each : ∀ text ∈ texts, OneLine text) :
    lines ("\n".intercalate texts) = texts.map String.toList := by
  rw [lines, String.toList_intercalate]
  refine List.splitOn_intercalate '\n' ?_ (mt List.map_eq_nil_iff.mp some)
  intro line listed
  obtain ⟨text, source, rfl⟩ := List.mem_map.mp listed
  exact each text source

private theorem isSuffix_of_dropBytes? {offset : Nat} {text rest : List Char}
    (found : dropBytes? offset text = some rest) : rest <:+ text := by
  fun_induction dropBytes? offset text with
  | case1 text =>
      cases found
      exact List.suffix_refl _
  | case2 => cases found
  | case3 offset char text _ ih => exact (ih found).trans (List.suffix_cons char text)
  | case4 => cases found

private theorem isPrefix_of_takeBytes? {size : Nat} {text taken : List Char}
    (found : takeBytes? size text = some taken) : taken <+: text := by
  fun_induction takeBytes? size text generalizing taken with
  | case1 text =>
      cases found
      exact List.nil_prefix
  | case2 => cases found
  | case3 size char text _ ih =>
      obtain ⟨inner, below, rfl⟩ := Option.map_eq_some_iff.mp found
      exact List.cons_prefix_cons.mpr ⟨rfl, ih below⟩
  | case4 => cases found

theorem isInfix_of_slice? {start finish : Nat} {text cut : List Char}
    (found : slice? start finish text = some cut) : cut <:+: text := by
  rw [slice?] at found
  split at found
  · obtain ⟨rest, dropped, taken⟩ := Option.bind_eq_some_iff.mp found
    exact (isPrefix_of_takeBytes? taken).isInfix.trans (isSuffix_of_dropBytes? dropped).isInfix
  · cases found

theorem isInfix_trim (text : List Char) : trim text <:+: text := by
  have left : trimLeft text <:+: text := (List.dropWhile_suffix isBlank).isInfix
  have right : trim text <:+: trimLeft text := by
    have reversed := (List.dropWhile_suffix (l := (trimLeft text).reverse) isBlank).isInfix
    rwa [← List.reverse_infix, List.reverse_reverse] at reversed
  exact right.trans left

end Text

namespace Diagnostic

def headline (source : String) (fault : Diagnostic) : String :=
  let place := Text.positionAt source.toList fault.span.start
  s!"[{fault.category.label}] line {place.line}:{place.column}: {fault.message}"

/-- The line is what is said of the fault, or that and a piece of the source. -/
def Shows (source : String) (fault : Diagnostic) (line : List Char) : Prop :=
  line = (fault.headline source).toList ∨ ∃ snippet, snippet ≠ "" ∧
    snippet.toList <:+: source.toList ∧
    line = s!"{fault.headline source} (at `{snippet}`)".toList

/-- The rendered text has a line for each fault, in order, and no others. -/
structure OnePerLine (source : String) (faults : List Diagnostic) : Prop where
  count : (Text.lines (renderAll faults source)).length = faults.length
  shows : ∀ (i : Nat) (fault : Diagnostic) (line : List Char), faults[i]? = some fault →
    (Text.lines (renderAll faults source))[i]? = some line → fault.Shows source line

variable {source : String} {fault : Diagnostic} {faults : List Diagnostic}

/-- The snippet is on one line and cut from the source. -/
theorem snippet_spec (fault : Diagnostic) (source : List Char) :
    '\n' ∉ fault.snippet source ∧ fault.snippet source <:+: source := by
  unfold snippet
  dsimp only
  split
  · exact ⟨List.not_mem_nil, List.nil_infix⟩
  · rename_i text cut
    have trimmed := Text.isInfix_trim (text.takeWhile (· != '\n'))
    refine ⟨fun inside => ?_, ?_⟩
    · have kept := List.all_eq_true.mp List.all_takeWhile _ (trimmed.subset inside)
      cases kept
    · exact trimmed.trans ((List.takeWhile_prefix _).isInfix.trans (Text.isInfix_of_slice? cut))

private theorem shows_render (fault : Diagnostic) (source : String) :
    fault.Shows source (fault.render source.toList).toList := by
  unfold render
  dsimp only
  split
  · exact .inl rfl
  · rename_i nonempty
    refine .inr ⟨String.ofList (fault.snippet source.toList), ?_, ?_, rfl⟩
    · intro empty
      have none := congrArg String.toList empty
      rw [String.toList_ofList] at none
      exact nonempty (List.isEmpty_iff.mpr none)
    · rw [String.toList_ofList]
      exact (fault.snippet_spec source.toList).2

private theorem oneLine_headline (oneLine : OneLine fault.message) (source : String) :
    OneLine (fault.headline source) := by
  have label : OneLine fault.category.label := by
    cases fault.category <;> exact .literal rfl
  exact .append (.append (.append (.append (.append (.between rfl label rfl) (.natural _))
    (.literal rfl)) (.natural _)) (.literal rfl)) oneLine

private theorem oneLine_render (oneLine : OneLine fault.message) (source : String) :
    OneLine (fault.render source.toList) := by
  have head := oneLine_headline oneLine source
  unfold render
  dsimp only
  split
  · exact head
  · exact .append (.append (.append head (.literal rfl)) (.ofChars (fault.snippet_spec _).1))
      (.literal rfl)

/-- A line that shows a fault has the whole message in it. -/
theorem Shows.oneLine_message {line : List Char} (shows : fault.Shows source line)
    (whole : '\n' ∉ line) : OneLine fault.message := by
  have head : OneLine (fault.headline source) := by
    rcases shows with rfl | ⟨snippet, _, _, rfl⟩
    · exact whole
    · have told : OneLine s!"{fault.headline source} (at `{snippet}`)" := whole
      exact told.of_append.1.of_append.1.of_append.1
  exact head.of_append.2

/-- There is a line for each fault just when every message is on one line. -/
theorem onePerLine_iff (some : faults ≠ []) :
    OnePerLine source faults ↔ ∀ fault ∈ faults, OneLine fault.message := by
  constructor
  · intro onePerLine fault listed
    -- With as many lines as faults each fault has its line, and no line has a line feed in it.
    obtain ⟨i, inside, rfl⟩ := List.getElem_of_mem listed
    have there : i < (Text.lines (renderAll faults source)).length := by
      rwa [onePerLine.count]
    refine (onePerLine.shows i _ _ (List.getElem?_eq_getElem inside)
      (List.getElem?_eq_getElem there)).oneLine_message ?_
    exact Text.not_mem_of_mem_splitOn (List.getElem_mem there)
  · intro each
    have lines : Text.lines (renderAll faults source) =
        (faults.map fun fault => fault.render source.toList).map String.toList := by
      refine Text.lines_intercalate (mt List.map_eq_nil_iff.mp some) ?_
      intro text listed
      obtain ⟨fault, told, rfl⟩ := List.mem_map.mp listed
      exact oneLine_render (each fault told) source
    constructor
    · rw [lines, List.length_map, List.length_map]
    · intro i fault line told shown
      rw [lines, List.getElem?_map, List.getElem?_map, told] at shown
      cases shown
      exact shows_render fault source

end Diagnostic

/-! ### The faults of a source -/

section Compiled

variable {source : String} {faults : List Diagnostic}

/-- A refused source has faults, and all their messages are on one line except for escaped line
ends. -/
theorem compile_tells (refused : compile source = .faults faults) :
    faults ≠ [] ∧ Lexer.Tells (Cursor.start source.toList) faults := by
  unfold compile at refused
  split at refused
  · cases refused
  · rename_i lexed
    cases refused
    exact lex_tells lexed
  · rename_i lexemes lexed
    have tidy := lex_tidy lexed
    split at refused
    · rename_i parsed
      cases refused
      obtain ⟨some, oneLine⟩ := parse_oneLine tidy parsed
      exact ⟨some, fun fault listed => .inl (oneLine fault listed)⟩
    · rename_i items parsed
      split at refused
      · rename_i fault lowered
        cases refused
        exact ⟨List.cons_ne_nil _ _, .one (.inl (lower_oneLine (parse_tidy tidy parsed) lowered))⟩
      · cases refused

/-- The rendered faults have a line for each just when none of them is an escaped line end, and an
escaped line end is a backslash in front of a line feed in the source. -/
theorem renderAll_one_per_line_iff (refused : compile source = .faults faults) :
    (Diagnostic.OnePerLine source faults ↔
        ∀ fault ∈ faults, fault.message ≠ Lexer.lineEndEscape) ∧
      ∀ fault ∈ faults, fault.message = Lexer.lineEndEscape →
        Text.slice? fault.span.start fault.span.finish source.toList = some ['\\', '\n'] := by
  obtain ⟨some, tells⟩ := compile_tells refused
  constructor
  · rw [Diagnostic.onePerLine_iff some]
    constructor
    · intro each fault listed same
      exact Lexer.not_oneLine_lineEndEscape (same ▸ each fault listed)
    · intro none fault listed
      exact (tells fault listed).resolve_right fun escapes => none fault listed escapes.message
  · intro fault listed same
    rcases tells fault listed with oneLine | ⟨_, slash, after, leads, apart, span⟩
    · exact absurd (same ▸ oneLine) Lexer.not_oneLine_lineEndEscape
    · rw [span]
      exact Cursor.slice?_of_over leads apart

end Compiled

def Compiled.faults? : Compiled → Option (List Diagnostic)
  | .faults diagnostics => some diagnostics
  | _ => none

private theorem Compiled.faults?_eq_some {compiled : Compiled} {faults : List Diagnostic}
    (found : compiled.faults? = some faults) : compiled = .faults faults := by
  cases compiled <;> cases found
  rfl

theorem two_faults_on_two_lines : ∃ faults, compile "int a = 09; #" = .faults faults ∧
    faults.length = 2 ∧ Diagnostic.OnePerLine "int a = 09; #" faults := by
  have found : (compile "int a = 09; #").faults? =
      some [⟨.lexer, "Integer literal out of range: 09", ⟨8, 10⟩⟩,
        ⟨.lexer, "Preprocessor directive survived inclusion", ⟨12, 13⟩⟩] := by
    decide +kernel
  have refused := Compiled.faults?_eq_some found
  exact ⟨_, refused, rfl, (renderAll_one_per_line_iff refused).1.mpr (by decide +kernel)⟩

theorem escaped_line_end_takes_two_lines : ∃ faults,
    compile "int main() \x7b return '\\\n'; \x7d" = .faults faults ∧ faults.length = 1 ∧
      ¬ Diagnostic.OnePerLine "int main() \x7b return '\\\n'; \x7d" faults := by
  have found : (compile "int main() \x7b return '\\\n'; \x7d").faults? =
      some [⟨.lexer, Lexer.lineEndEscape, ⟨21, 23⟩⟩] := by
    decide +kernel
  refine ⟨_, Compiled.faults?_eq_some found, rfl, fun onePerLine => ?_⟩
  have each := (Diagnostic.onePerLine_iff (List.cons_ne_nil _ _)).mp onePerLine
  exact Lexer.not_oneLine_lineEndEscape (each _ List.mem_cons_self)

end MiniC
