import Mathlib.Data.List.TakeWhile
import MiniC.Proofs.Include.Lines
import MiniC.Proofs.IncludeChains

/-!
Expanded text.

No line of an expanded text is a directive, so that expanding it again, wherever and
with whatever files, changes nothing. Where no include brings in a file, lines keep
their numbers: a directive leaves the newline of its line and nothing else.
-/

namespace MiniC.Include

/-- The first character of a line that is not blank. -/
def firstVisible (line : List Char) : Option Char := line.find? fun char => !Text.isBlank char

variable {searchPath : SearchPath} {dir? : Option String} {offset : Nat}
  {line text first second body out : List Char} {source rest : List (List Char)}
  {active : List String}

private theorem head?_trimLeft (line : List Char) :
    (Text.trimLeft line).head? = firstVisible line := by
  rw [firstVisible, List.find?_eq_head?_dropWhile_not]
  simp only [Bool.not_not]
  rfl

private theorem firstVisible_concat (line : List Char) :
    firstVisible (line ++ ['\n']) = firstVisible line := by
  rw [firstVisible, List.find?_append]
  exact Option.or_none

/-- A line is a directive exactly if the first thing to be seen in it is a hash. -/
theorem readDirective_eq_none_iff (line : List Char) :
    readDirective line = .ok none ↔ firstVisible line ≠ some '#' := by
  rw [← head?_trimLeft, readDirective]
  split
  · next rest same =>
      rw [same, List.head?_cons]
      refine iff_of_false ?_ (fun different => different rfl)
      dsimp only
      split_ifs
      · exact nofun
      · split
        · cases readTarget _ <;> exact nofun
        · exact nofun
  · next other =>
      refine iff_of_true rfl ?_
      intro same
      obtain ⟨rest, same⟩ := List.head?_eq_some_iff.mp same
      exact other rest same

def Undirected (text : List Char) : Prop := ∀ line ∈ lines text, firstVisible line ≠ some '#'

theorem undirected_nil : Undirected [] := List.forall_mem_nil _

theorem undirected_open_iff (nonempty : body ≠ []) (inside : '\n' ∉ body) :
    Undirected body ↔ firstVisible body ≠ some '#' := by
  rw [Undirected, lines_open nonempty inside, List.forall_mem_singleton]

theorem undirected_closed_iff (inside : '\n' ∉ body) (text : List Char) :
    Undirected (body ++ '\n' :: text) ↔ firstVisible body ≠ some '#' ∧ Undirected text := by
  rw [Undirected, lines_closed inside, List.forall_mem_cons, firstVisible_concat, ← Undirected]

private theorem undirected_open (inside : '\n' ∉ body) (plain : firstVisible body ≠ some '#') :
    Undirected body := by
  by_cases nonempty : body = []
  · rw [nonempty]
    exact undirected_nil
  · exact (undirected_open_iff nonempty inside).mpr plain

theorem Undirected.append (ended : endsLine first = true) (before : Undirected first)
    (behind : Undirected second) : Undirected (first ++ second) := by
  rw [Undirected, lines_append ended]
  exact List.forall_mem_append.mpr ⟨before, behind⟩

private theorem Undirected.concat (undirected : Undirected text) : Undirected (text ++ ['\n']) := by
  induction text using byLines with
  | empty => exact (undirected_closed_iff List.not_mem_nil []).mpr ⟨nofun, undirected_nil⟩
  | last body nonempty inside =>
      rw [undirected_open_iff nonempty inside] at undirected
      exact (undirected_closed_iff inside []).mpr ⟨undirected, undirected_nil⟩
  | more body text inside ih =>
      rw [undirected_closed_iff inside] at undirected
      rw [List.append_assoc, List.cons_append, undirected_closed_iff inside]
      exact ⟨undirected.1, ih undirected.2⟩

private theorem endsLine_closeLine (text : List Char) : endsLine (closeLine text) = true := by
  unfold closeLine
  split
  · assumption
  · exact endsLine_concat text

theorem Undirected.closeLine (undirected : Undirected text) : Undirected (closeLine text) := by
  unfold Include.closeLine
  split
  · exact undirected
  · exact undirected.concat

/-- A closed line that includes no file stays a closed line, which is no directive. -/
theorem Keeps.closed (keeps : Keeps searchPath dir? (body ++ ['\n']) text) (inside : '\n' ∉ body) :
    ∃ kept, '\n' ∉ kept ∧ text = kept ++ ['\n'] ∧ firstVisible kept ≠ some '#' ∧
      (firstVisible body ≠ some '#' → kept = body) := by
  generalize same : body ++ ['\n'] = line at keeps
  cases keeps with
  | plain read =>
      have plain := (readDirective_eq_none_iff _).mp read
      rw [← same, firstVisible_concat] at plain
      exact ⟨body, inside, same.symm, plain, fun _ => rfl⟩
  | blank read _ =>
      rw [← same, endsLine_concat, if_pos rfl]
      refine ⟨[], List.not_mem_nil, rfl, nofun, ?_⟩
      intro plain
      rw [← firstVisible_concat, same, ← readDirective_eq_none_iff] at plain
      cases read.symm.trans plain

/-- An open line that includes no file stays as it is or vanishes. -/
theorem Keeps.opened (keeps : Keeps searchPath dir? body text) (inside : '\n' ∉ body) :
    '\n' ∉ text ∧ firstVisible text ≠ some '#' ∧ (firstVisible body ≠ some '#' → text = body) := by
  cases keeps with
  | plain read => exact ⟨inside, (readDirective_eq_none_iff _).mp read, fun _ => rfl⟩
  | blank read _ =>
      rw [endsLine_open inside]
      refine ⟨List.not_mem_nil, nofun, ?_⟩
      intro plain
      cases read.symm.trans ((readDirective_eq_none_iff _).mpr plain)

private theorem Spliced.undirected (spliced : Spliced searchPath dir? source out)
    (lined : Lined source) :
    Undirected out := by
  induction spliced with
  | nil => exact undirected_nil
  | keep keeps behind ih =>
      cases lined with
      | last _ inside =>
          cases behind
          obtain ⟨open_, plain, _⟩ := keeps.opened inside
          rw [List.append_nil]
          exact undirected_open open_ plain
      | cons inside lined =>
          obtain ⟨kept, closed, rfl, plain, _⟩ := keeps.closed inside
          rw [List.append_assoc, List.singleton_append]
          exact (undirected_closed_iff closed _).mpr ⟨plain, ih lined⟩
  | file _ _ _ _ inner behind =>
      exact (inner (lined_lines _)).closeLine.append (endsLine_closeLine _) (behind lined.tail)

/-- Where no include brings in a file, newlines are neither lost nor won, and lines that are no
directives keep their places. -/
theorem Spliced.aligned (spliced : Spliced searchPath dir? source out) (lined : Lined source)
    (unopened : ∀ line ∈ source, ∀ path file, ¬ Opens searchPath dir? line path file) :
    out.count '\n' = source.flatten.count '\n' ∧
      ∀ (number : Nat) (line : List Char), source[number]? = some line →
        firstVisible line ≠ some '#' → (lines out)[number]? = some line := by
  induction spliced with
  | nil => exact ⟨rfl, nofun⟩
  | keep keeps behind ih =>
      cases lined with
      | last nonempty inside =>
          cases behind
          obtain ⟨open_, _, same⟩ := keeps.opened inside
          rw [List.append_nil, List.flatten_singleton, List.count_eq_zero.mpr open_,
            List.count_eq_zero.mpr inside]
          refine ⟨rfl, ?_⟩
          intro number line found plain
          cases number with
          | zero =>
              cases found
              rw [same plain, lines_open nonempty inside]
              rfl
          | succ number => cases found
      | cons inside lined =>
          obtain ⟨newlines, places⟩ :=
            ih lined fun line listed => unopened line (List.mem_cons_of_mem _ listed)
          obtain ⟨kept, closed, rfl, _, same⟩ := keeps.closed inside
          constructor
          · rw [List.flatten_cons, List.count_append, List.count_append, List.count_append,
              List.count_append, List.count_eq_zero.mpr closed, List.count_eq_zero.mpr inside,
              newlines]
          · intro number line found plain
            rw [List.append_assoc, List.singleton_append, lines_closed closed]
            cases number with
            | zero =>
                cases found
                rw [firstVisible_concat] at plain
                rw [same plain]
                rfl
            | succ number => exact places number line found plain
  | file opens _ _ _ _ _ => exact absurd opens (unopened _ List.mem_cons_self _ _)

/-! ### Sources -/

private theorem spliced_of_expand {origin? : Option String} {source out : String}
    (expanded : expand searchPath origin? source = .ok out) :
    Spliced searchPath (origin?.bind Path.parent?) (lines source.toList) out.toList := by
  obtain ⟨result, history, runs⟩ := exists_runs searchPath (origin?.bind Path.parent?) 0
    (lines source.toList) (activeAt searchPath origin?)
  rw [expand_of_runs runs] at expanded
  cases result with
  | error fault => cases expanded
  | ok text =>
      cases expanded
      rw [String.toList_ofList]
      exact runs.spliced

private theorem runs_of_plain (plain : ∀ line ∈ source, firstVisible line ≠ some '#') :
    Runs searchPath dir? offset source active (.ok source.flatten) active [] := by
  induction source generalizing offset with
  | nil => exact .finish
  | cons line rest ih =>
      rw [List.forall_mem_cons] at plain
      exact .keep (.plain ((readDirective_eq_none_iff line).mpr plain.1)) (ih plain.2)

private theorem expand_of_undirected {out : String} (undirected : Undirected out.toList)
    (searchPath : SearchPath) (origin? : Option String) :
    expand searchPath origin? out = .ok out := by
  rw [expand_of_runs (runs_of_plain undirected), lines_flatten]
  exact congrArg Except.ok String.ofList_toList

/-- An expanded text has no directives, so that it is its own expansion, and where no directive of
the source brings in a file, what is no directive stands at its old line. -/
theorem expanded_text_is_settled {searchPath : SearchPath} {origin? : Option String}
    {source out : String} (expanded : expand searchPath origin? source = .ok out) :
    (∀ line ∈ lines out.toList, firstVisible line ≠ some '#') ∧
    (∀ other again, expand other again out = .ok out) ∧
    ((∀ line ∈ lines source.toList, ∀ path file,
        ¬ Opens searchPath (origin?.bind Path.parent?) line path file) →
      out.toList.count '\n' = source.toList.count '\n' ∧
      ∀ (number : Nat) (line : List Char), (lines source.toList)[number]? = some line →
        firstVisible line ≠ some '#' → (lines out.toList)[number]? = some line) := by
  have spliced := spliced_of_expand expanded
  have undirected := spliced.undirected (lined_lines _)
  refine ⟨undirected, expand_of_undirected undirected, ?_⟩
  intro unopened
  have aligned := spliced.aligned (lined_lines _) unopened
  rw [lines_flatten] at aligned
  exact aligned

def oneHeader : SearchPath :=
  ⟨⟨fun path => if path = "inc/a.h" then .ok ⟨path, .ok "int a;"⟩ else .error .notFound⟩, ["inc"]⟩

private theorem opens_oneHeader :
    Opens oneHeader none "#include <a.h>\n".toList "inc/a.h" ⟨"inc/a.h", .ok "int a;"⟩ := by
  have joined : Path.join "inc" "a.h" = "inc/a.h" := by decide +kernel
  refine ⟨.angled "a.h", rfl, ?_⟩
  rw [SearchPath.resolve, oneHeader, search, joined]
  rfl

private theorem keeps_otherHeader : Keeps oneHeader none " # include <b.h>\n".toList ['\n'] := by
  have elsewhere : Path.join "inc" "b.h" ≠ "inc/a.h" := by decide +kernel
  refine @Keeps.blank oneHeader none _ (.angled "b.h") rfl ?_
  simp only [SearchPath.resolve, oneHeader, search, Files.find?, if_neg elsewhere]
  rfl

/-- A header that is found, and one that is not. -/
theorem header_and_pragma_are_settled :
    (expand oneHeader none "#include <a.h>\n int b;\n#pragma once" = .ok "int a;\n int b;\n" ∧
      ∀ other again, expand other again "int a;\n int b;\n" = .ok "int a;\n int b;\n") ∧
    expand oneHeader none " # include <b.h>\n int b;\n#pragma once" = .ok "\n int b;\n" ∧
      "\n int b;\n".toList.count '\n' = 2 ∧
      (lines "\n int b;\n".toList)[1]? = some " int b;\n".toList := by
  have plain : Keeps oneHeader none " int b;\n".toList " int b;\n".toList := .plain rfl
  have pragma : Keeps oneHeader none "#pragma once".toList [] :=
    @Keeps.blank oneHeader none _ .pragma rfl rfl
  have found : expand oneHeader none "#include <a.h>\n int b;\n#pragma once" =
      .ok "int a;\n int b;\n" :=
    @expand_of_runs oneHeader _ (.ok "int a;\n int b;\n".toList) _ none _
      (.splice opens_oneHeader ⟨List.not_mem_nil, by decide, rfl⟩ (.keep (.plain rfl) .finish)
        (.keep plain (.keep pragma .finish)))
  have missing : expand oneHeader none " # include <b.h>\n int b;\n#pragma once" =
      .ok "\n int b;\n" :=
    @expand_of_runs oneHeader _ (.ok "\n int b;\n".toList) _ none _
      (.keep keeps_otherHeader (.keep plain (.keep pragma .finish)))
  have unopened : ∀ line ∈ lines " # include <b.h>\n int b;\n#pragma once".toList,
      ∀ path file, ¬ Opens oneHeader none line path file := by
    have cut : lines " # include <b.h>\n int b;\n#pragma once".toList =
        [" # include <b.h>\n".toList, " int b;\n".toList, "#pragma once".toList] := rfl
    rw [cut, List.forall_mem_cons, List.forall_mem_cons, List.forall_mem_singleton]
    exact ⟨fun _ _ => keeps_not_opens keeps_otherHeader, fun _ _ => keeps_not_opens plain,
      fun _ _ => keeps_not_opens pragma⟩
  have settled := (expanded_text_is_settled missing).2.2 unopened
  exact ⟨⟨found, (expanded_text_is_settled found).2.1⟩, missing, settled.1,
    settled.2 1 _ rfl (by decide)⟩

end MiniC.Include
