import Mathlib.Data.List.DropRight
import MiniC.Proofs.Include.Lines
import MiniC.Proofs.IncludeChains
import MiniC.Proofs.Token.Movement

/-!
Faults of includes.

A fault is reported at the first line of the source that cannot be expanded, however
deep below that line the cause lies. Its message names the files on the way to the
cause, from the outside in, and then the cause.
-/

namespace MiniC.Include

section Lines

variable (searchPath : SearchPath)

/-- The line can be expanded beside the open files. -/
inductive Expandable : Option String → List String → List Char → Prop where
  | keep {dir? : Option String} {active : List String} {line text : List Char} :
      Keeps searchPath dir? line text → Expandable dir? active line
  | file {dir? : Option String} {active : List String} {line : List Char} {path text : String}
      {file : File} :
      Opens searchPath dir? line path file → Admits active file text →
      (∀ inner ∈ lines text.toList,
        Expandable (Path.parent? path) (file.name :: active) inner) →
      Expandable dir? active line

/-- The line cannot be expanded beside the open files, for a cause that lies behind the paths. The
line opens the file at the first path, and the first line of that file that cannot be expanded opens
the next one. The cause is found at such a line of the last file. -/
inductive Stops : Option String → List String → List Char → List String → Cause → Prop where
  | refuse {dir? : Option String} {active : List String} {line : List Char} {cause : Cause} :
      Refuses searchPath dir? line cause → Stops dir? active line [] cause
  | block {dir? : Option String} {active : List String} {line : List Char} {path : String}
      {file : File} {cause : Cause} :
      Opens searchPath dir? line path file → Blocked active path file cause →
      Stops dir? active line [] cause
  | within {dir? : Option String} {active paths : List String} {line inner : List Char}
      {before behind : List (List Char)} {path text : String} {file : File} {cause : Cause} :
      Opens searchPath dir? line path file → Admits active file text →
      lines text.toList = before ++ inner :: behind →
      (∀ earlier ∈ before,
        Expandable searchPath (Path.parent? path) (file.name :: active) earlier) →
      Stops (Path.parent? path) (file.name :: active) inner paths cause →
      Stops dir? active line (path :: paths) cause

end Lines

variable {searchPath : SearchPath} {dir? : Option String} {offset : Nat} {line out : List Char}
  {source rest before : List (List Char)} {active after paths : List String} {cause : Cause}
  {fault : Fault} {result : Except Fault (List Char)} {history : List (List String)}

private theorem Refuses.not_keeps {text : List Char}
    (refuses : Refuses searchPath dir? line cause) :
    ¬ Keeps searchPath dir? line text := by
  intro keeps
  have kept : expandLine searchPath none [] dir? line = .ok text := expandLine_of_keeps keeps none
  rw [expandLine_of_refuses refuses] at kept
  cases kept

private theorem Refuses.not_opens {path : String} {file : File}
    (refuses : Refuses searchPath dir? line cause) : ¬ Opens searchPath dir? line path file := by
  rintro ⟨directive, read, resolved⟩
  cases refuses with
  | directive unread => cases unread.symm.trans read
  | target also refused =>
      cases also.symm.trans read
      cases refused.symm.trans resolved

private theorem Blocked.not_admits {path text : String} {file : File}
    (blocked : Blocked active path file cause) : ¬ Admits active file text := by
  intro admits
  cases blocked with
  | circular opened => exact admits.new opened
  | tooDeep _ full => exact Nat.not_le_of_lt admits.room full
  | unreadable _ _ unreadable => cases unreadable.symm.trans admits.readable

private theorem Stops.not_expandable (stops : Stops searchPath dir? active line paths cause) :
    ¬ Expandable searchPath dir? active line := by
  induction stops with
  | refuse refuses =>
      intro expandable
      cases expandable with
      | keep keeps => exact refuses.not_keeps keeps
      | file opens _ _ => exact refuses.not_opens opens
  | block opens blocked =>
      intro expandable
      cases expandable with
      | keep keeps => exact keeps_not_opens keeps opens
      | file also admits _ =>
          obtain ⟨rfl, rfl⟩ := opens.unique also
          exact blocked.not_admits admits
  | within opens admits cut _ _ ih =>
      intro expandable
      cases expandable with
      | keep keeps => exact keeps_not_opens keeps opens
      | file also again all =>
          obtain ⟨rfl, rfl⟩ := opens.unique also
          cases admits.readable.symm.trans again.readable
          rw [cut] at all
          exact ih (all _ (List.mem_append_right _ List.mem_cons_self))

private theorem Runs.expandable
    (runs : Runs searchPath dir? offset source active (.ok out) after history) :
    ∀ line ∈ source, Expandable searchPath dir? active line := by
  generalize succeeded : Except.ok out = result at runs
  induction runs generalizing out with
  | finish => exact List.forall_mem_nil _
  | keep keeps _ ih =>
      obtain ⟨others, same, _⟩ := exists_of_map_ok succeeded.symm
      exact List.forall_mem_cons.mpr ⟨.keep keeps, ih same.symm⟩
  | refuse _ => cases succeeded
  | block _ _ => cases succeeded
  | fail _ _ _ _ => cases succeeded
  | splice opens admits runs _ inner behind =>
      obtain ⟨others, same, _⟩ := exists_of_map_ok succeeded.symm
      rw [runs.restores, List.tail_cons] at behind
      exact List.forall_mem_cons.mpr ⟨.file opens admits (inner rfl), behind same.symm⟩

def Cause.behind (cause : Cause) (paths : List String) : Cause := paths.foldr .within cause

/-- The fault of lines that start at the offset is that of the first which cannot be expanded. -/
structure FaultAt (searchPath : SearchPath) (dir? : Option String) (offset : Nat)
    (source : List (List Char)) (active : List String) (fault : Fault)
    (before : List (List Char)) (line : List Char) (paths : List String) (cause : Cause) :
    Prop where
  cut : ∃ behind, source = before ++ line :: behind
  first : ∀ earlier ∈ before, Expandable searchPath dir? active earlier
  stops : Stops searchPath dir? active line paths cause
  fault_eq : fault =
    ⟨cause.behind paths, lineSpan (offset + Text.byteSize before.flatten) line⟩

theorem FaultAt.cons {first : List Char} (expandable : Expandable searchPath dir? active first)
    (at_ : FaultAt searchPath dir? (offset + Text.byteSize first) rest active fault before line
      paths cause) :
    FaultAt searchPath dir? offset (first :: rest) active fault (first :: before) line paths
      cause := by
  obtain ⟨⟨behind, rfl⟩, earlier, stops, same⟩ := at_
  refine ⟨⟨behind, rfl⟩, List.forall_mem_cons.mpr ⟨expandable, earlier⟩, stops, ?_⟩
  rw [same, List.flatten_cons, Text.byteSize_append, Nat.add_assoc]

private theorem Runs.exists_faultAt
    (runs : Runs searchPath dir? offset source active (.error fault) after history) :
    ∃ before line paths cause,
      FaultAt searchPath dir? offset source active fault before line paths cause := by
  generalize failed : Except.error fault = result at runs
  induction runs generalizing fault with
  | finish => cases failed
  | @keep _ _ _ _ _ _ _ result _ keeps _ ih =>
      cases result with
      | ok others => cases failed
      | error inner =>
          cases failed
          obtain ⟨before, line, paths, cause, found⟩ := ih rfl
          exact ⟨_, line, paths, cause, found.cons (.keep keeps)⟩
  | refuse refuses =>
      cases failed
      exact ⟨[], _, [], _, ⟨_, rfl⟩, List.forall_mem_nil _, .refuse refuses, rfl⟩
  | block opens blocked =>
      cases failed
      exact ⟨[], _, [], _, ⟨_, rfl⟩, List.forall_mem_nil _, .block opens blocked, rfl⟩
  | @fail _ _ _ _ _ _ path _ _ _ _ opens admits _ ih =>
      cases failed
      obtain ⟨before, line, paths, cause, ⟨behind, cut⟩, first, stops, same⟩ := ih rfl
      refine ⟨[], _, path :: paths, cause, ⟨_, rfl⟩, List.forall_mem_nil _,
        .within opens admits cut first stops, ?_⟩
      rw [same]
      rfl
  | @splice _ _ _ _ _ _ _ _ _ _ _ result _ _ opens admits runs _ _ behind =>
      cases result with
      | ok others => cases failed
      | error inner =>
          cases failed
          obtain ⟨before, line, paths, cause, found⟩ := behind rfl
          -- The included file leaves the open files as they were, so that the lines behind it are
          -- judged beside the same ones.
          rw [runs.restores, List.tail_cons] at found
          exact ⟨_, line, paths, cause, found.cons (.file opens admits runs.expandable)⟩

def Prepends (searchPath : SearchPath) (dir? : Option String) (active : List String)
    (line : List Char) : Prop :=
  ∀ {offset : Nat} {rest : List (List Char)} {result : Except Fault (List Char)}
    {history : List (List String)},
    Runs searchPath dir? (offset + Text.byteSize line) rest active result active history →
    ∃ text history, Runs searchPath dir? offset (line :: rest) active (result.map (text ++ ·))
      active history

private theorem runs_prepended (offset : Nat)
    (prepends : ∀ line ∈ before, Prepends searchPath dir? active line)
    (runs : Runs searchPath dir? (offset + Text.byteSize before.flatten) rest active result active
      history) :
    ∃ text history, Runs searchPath dir? offset (before ++ rest) active (result.map (text ++ ·))
      active history := by
  induction before generalizing offset with
  | nil =>
      refine ⟨[], history, ?_⟩
      cases result <;> exact runs
  | cons line before ih =>
      rw [List.forall_mem_cons] at prepends
      rw [List.flatten_cons, Text.byteSize_append, ← Nat.add_assoc] at runs
      obtain ⟨behind, _, runs⟩ := ih _ prepends.2 runs
      obtain ⟨text, history, runs⟩ := prepends.1 runs
      refine ⟨text ++ behind, history, ?_⟩
      cases result with
      | error fault => exact runs
      | ok out =>
          rw [Except.map, List.append_assoc]
          exact runs

private theorem Expandable.prepends (expandable : Expandable searchPath dir? active line) :
    Prepends searchPath dir? active line := by
  induction expandable with
  | keep keeps =>
      intro offset rest result history runs
      exact ⟨_, _, .keep keeps runs⟩
  | @file dir? active line path text file opens admits _ ih =>
      intro offset rest result history runs
      obtain ⟨inner, _, within⟩ := runs_prepended 0 ih .finish
      rw [List.append_nil] at within
      exact ⟨_, _, .splice opens admits within runs⟩

private theorem runs_of_expandable (offset : Nat)
    (expandable : ∀ line ∈ before, Expandable searchPath dir? active line)
    (runs : Runs searchPath dir? (offset + Text.byteSize before.flatten) rest active result active
      history) :
    ∃ text history, Runs searchPath dir? offset (before ++ rest) active (result.map (text ++ ·))
      active history :=
  runs_prepended offset (fun line listed => (expandable line listed).prepends) runs

theorem Stops.runs (stops : Stops searchPath dir? active line paths cause) (offset : Nat)
    (rest : List (List Char)) :
    ∃ history, Runs searchPath dir? offset (line :: rest) active
      (.error ⟨cause.behind paths, lineSpan offset line⟩) active history := by
  induction stops generalizing offset rest with
  | refuse refuses => exact ⟨_, .refuse refuses⟩
  | block opens blocked => exact ⟨_, .block opens blocked⟩
  | within opens admits cut first _ ih =>
      obtain ⟨_, inner⟩ := ih _ _
      obtain ⟨_, _, inner⟩ := runs_of_expandable 0 first inner
      rw [← cut] at inner
      exact ⟨_, .fail opens admits inner⟩

theorem FaultAt.runs
    (found : FaultAt searchPath dir? offset source active fault before line paths cause) :
    ∃ history, Runs searchPath dir? offset source active (.error fault) active history := by
  obtain ⟨⟨behind, rfl⟩, first, stops, rfl⟩ := found
  obtain ⟨_, runs⟩ := stops.runs (offset + Text.byteSize before.flatten) behind
  obtain ⟨_, history, runs⟩ := runs_of_expandable offset first runs
  exact ⟨history, runs⟩

/-! ### Sources -/

/-- The message of a cause behind paths: each path in order, and then the cause. -/
theorem Cause.message_behind (cause : Cause) (paths : List String) :
    (cause.behind paths).message =
      String.join (paths.map fun path => s!"in {path}: ") ++ cause.message := by
  induction paths with
  | nil => rw [List.map_nil, String.join_nil, String.empty_append]; rfl
  | cons path paths ih =>
      rw [List.map_cons, String.join_cons, String.append_assoc, ← ih]
      rfl

/-- The span of a line marks it in the text, without the blanks at its end. -/
theorem slice?_lineSpan {behind : List (List Char)} {text : List Char}
    (cut : lines text = before ++ line :: behind) :
    Text.slice? (Text.byteSize before.flatten)
        (Text.byteSize before.flatten + Text.byteSize (Text.trimRight line)) text =
      some (Text.trimRight line) := by
  obtain ⟨blanks, same⟩ : Text.trimRight line <+: line := List.rdropWhile_prefix _ line
  have whole : text = before.flatten ++ (Text.trimRight line ++ (blanks ++ behind.flatten)) := by
    rw [← lines_flatten text, cut, List.flatten_append, List.flatten_cons,
      ← List.append_assoc _ blanks, same]
  rw [whole]
  exact Text.slice?_append _ _ _

/-- The diagnostic that a source gives rise to at a line, when the lines before it can be expanded
and the line cannot, for a cause behind the files at the paths. -/
structure ReportedAt (searchPath : SearchPath) (origin? : Option String) (source : String)
    (diagnostic : Diagnostic) (before : List (List Char)) (line : List Char)
    (paths : List String) (cause : Cause) : Prop where
  cut : ∃ behind, lines source.toList = before ++ line :: behind
  first : ∀ earlier ∈ before,
    Expandable searchPath (origin?.bind Path.parent?) (activeAt searchPath origin?) earlier
  not_expandable :
    ¬ Expandable searchPath (origin?.bind Path.parent?) (activeAt searchPath origin?) line
  stops : Stops searchPath (origin?.bind Path.parent?) (activeAt searchPath origin?) line paths
    cause
  category : diagnostic.category = .preprocessor
  message : diagnostic.message =
    String.join (paths.map fun path => s!"in {path}: ") ++ cause.message
  span : diagnostic.span = ⟨Text.byteSize before.flatten,
    Text.byteSize before.flatten + Text.byteSize (Text.trimRight line)⟩
  /-- The span marks the line in the source itself, without the blanks at its end. -/
  marked : Text.slice? diagnostic.span.start diagnostic.span.finish source.toList =
    some (Text.trimRight line)

/-- An expansion fails exactly if a line of the source cannot be expanded, and it reports the first
such line, with the way from there to the cause. -/
theorem expand_error_iff (searchPath : SearchPath) (origin? : Option String) (source : String)
    (diagnostic : Diagnostic) :
    expand searchPath origin? source = .error diagnostic ↔
      ∃ before line paths cause,
        ReportedAt searchPath origin? source diagnostic before line paths cause := by
  constructor
  · intro failed
    obtain ⟨result, history, runs⟩ := exists_runs searchPath (origin?.bind Path.parent?) 0
      (lines source.toList) (activeAt searchPath origin?)
    rw [expand_of_runs runs] at failed
    cases result with
    | ok out => cases failed
    | error fault =>
        cases failed
        obtain ⟨before, line, paths, cause, ⟨behind, cut⟩, first, stops, same⟩ :=
          runs.exists_faultAt
        rw [Nat.zero_add] at same
        subst same
        exact ⟨before, line, paths, cause, ⟨behind, cut⟩, first, stops.not_expandable, stops, rfl,
          cause.message_behind paths, rfl, slice?_lineSpan cut⟩
  · rintro ⟨before, line, paths, cause, reported⟩
    have found : FaultAt searchPath (origin?.bind Path.parent?) 0 (lines source.toList)
        (activeAt searchPath origin?)
        ⟨cause.behind paths, lineSpan (0 + Text.byteSize before.flatten) line⟩ before line paths
        cause :=
      ⟨reported.cut, reported.first, reported.stops, rfl⟩
    obtain ⟨history, runs⟩ := found.runs
    obtain ⟨category, message, span⟩ := diagnostic
    obtain rfl : category = .preprocessor := reported.category
    obtain rfl : message = _ := reported.message
    obtain rfl : span = _ := reported.span
    rw [expand_of_runs runs, ← cause.message_behind, Nat.zero_add]
    rfl

end MiniC.Include
