import Mathlib.Data.List.Nodup
import MiniC.Proofs.Include.Runs

/-!
Includes are acyclic and of bounded depth.

What an expansion gives is the source with every include replaced by the replaced
text of its file, wherever and however often that file is included. It gives this
exactly if that text exists and no chain of includes comes to a file twice or opens
too many.
-/

namespace MiniC.Include

section Texts

variable (searchPath : SearchPath)

/-- The text in which every include is replaced by the replaced text of its file. -/
inductive Spliced : Option String → List (List Char) → List Char → Prop where
  | nil {dir? : Option String} : Spliced dir? [] []
  | keep {dir? : Option String} {line text others : List Char} {rest : List (List Char)} :
      Keeps searchPath dir? line text → Spliced dir? rest others →
      Spliced dir? (line :: rest) (text ++ others)
  | file {dir? : Option String} {line replaced others : List Char} {rest : List (List Char)}
      {path text : String} {file : File} :
      Opens searchPath dir? line path file → file.contents = .ok text →
      Spliced (Path.parent? path) (lines text.toList) replaced → Spliced dir? rest others →
      Spliced dir? (line :: rest) (closeLine replaced ++ others)

/-- The names of files, the first of which the text includes, and each of which includes the next. A
file that cannot be read includes nothing. -/
inductive Chain : Option String → List (List Char) → List String → Prop where
  | nil {dir? : Option String} {source : List (List Char)} : Chain dir? source []
  | cons {dir? : Option String} {source : List (List Char)} {line : List Char} {path : String}
      {file : File} {names : List String} :
      line ∈ source → Opens searchPath dir? line path file →
      Chain (Path.parent? path) (lines (file.contents.toOption.getD "").toList) names →
      Chain dir? source (file.name :: names)

end Texts

variable {searchPath : SearchPath} {dir? : Option String} {offset : Nat} {line : List Char}
  {source rest : List (List Char)} {active after names : List String}
  {result : Except Fault (List Char)} {history : List (List String)} {out : List Char}

theorem exists_of_map_ok {α β : Type} {result : Except Fault α} {f : α → β} {value : β}
    (same : result.map f = .ok value) : ∃ inner, result = .ok inner ∧ f inner = value := by
  cases result with
  | error fault => cases same
  | ok inner => exact ⟨inner, rfl, Except.ok.inj same⟩

theorem Runs.spliced (runs : Runs searchPath dir? offset source active (.ok out) after history) :
    Spliced searchPath dir? source out := by
  generalize succeeded : Except.ok out = result at runs
  induction runs generalizing out with
  | finish =>
      cases succeeded
      exact .nil
  | keep keeps _ ih =>
      obtain ⟨others, same, rfl⟩ := exists_of_map_ok succeeded.symm
      exact .keep keeps (ih same.symm)
  | refuse _ => cases succeeded
  | block _ _ => cases succeeded
  | fail _ _ _ _ => cases succeeded
  | splice opens admits _ _ inner behind =>
      obtain ⟨others, same, rfl⟩ := exists_of_map_ok succeeded.symm
      exact .file opens admits.readable (inner rfl) (behind same.symm)

theorem keeps_not_opens {path : String} {file : File} {text : List Char}
    (keeps : Keeps searchPath dir? line text) : ¬ Opens searchPath dir? line path file := by
  rintro ⟨directive, read, resolved⟩
  cases keeps with
  | plain plain => cases plain.symm.trans read
  | blank blank nothing =>
      cases blank.symm.trans read
      cases nothing.symm.trans resolved

theorem Opens.unique {path other : String} {file another : File}
    (opens : Opens searchPath dir? line path file)
    (also : Opens searchPath dir? line other another) : path = other ∧ file = another := by
  obtain ⟨directive, read, resolved⟩ := opens
  obtain ⟨_, again, found⟩ := also
  cases read.symm.trans again
  cases resolved.symm.trans found
  exact ⟨rfl, rfl⟩

/-- Where a run succeeds, the files of a chain, put in front of the open ones as they are opened, are
all different and not too many. -/
theorem Runs.sound_chain
    (runs : Runs searchPath dir? offset source active (.ok out) after history)
    (sound : Sound active) (chain : Chain searchPath dir? source names) :
    Sound (names.reverse ++ active) := by
  generalize succeeded : Except.ok out = result at runs
  induction runs generalizing out names with
  | finish =>
      cases chain with
      | nil => exact sound
      | cons listed _ _ => cases listed
  | keep keeps _ ih =>
      obtain ⟨others, same, rfl⟩ := exists_of_map_ok succeeded.symm
      cases chain with
      | nil => exact sound
      | cons listed opens chain =>
          rcases List.mem_cons.mp listed with rfl | listed
          · exact absurd opens (keeps_not_opens keeps)
          · exact ih sound (.cons listed opens chain) same.symm
  | refuse _ => cases succeeded
  | block _ _ => cases succeeded
  | fail _ _ _ _ => cases succeeded
  | splice opens admits runs _ inner behind =>
      obtain ⟨others, same, rfl⟩ := exists_of_map_ok succeeded.symm
      cases chain with
      | nil => exact sound
      | cons listed also chain =>
          rcases List.mem_cons.mp listed with rfl | listed
          · obtain ⟨rfl, rfl⟩ := opens.unique also
            rw [admits.readable] at chain
            rw [List.reverse_cons, List.append_assoc]
            exact inner (admits.sound sound) chain rfl
          · rw [runs.restores, List.tail_cons] at behind
            exact behind sound (.cons listed also chain) same.symm

theorem Chain.behind (chain : Chain searchPath dir? rest names) :
    Chain searchPath dir? (line :: rest) names := by
  cases chain with
  | nil => exact .nil
  | cons listed opens chain => exact .cons (List.mem_cons_of_mem line listed) opens chain

/-- If no chain comes to a file twice or opens too many, every include is expanded. -/
theorem Spliced.exists_runs (spliced : Spliced searchPath dir? source out)
    (sound : ∀ names, Chain searchPath dir? source names → Sound (names.reverse ++ active)) :
    ∃ history, Runs searchPath dir? offset source active (.ok out) active history := by
  induction spliced generalizing offset active with
  | nil => exact ⟨_, .finish⟩
  | keep keeps _ ih =>
      obtain ⟨history, runs⟩ := ih fun names chain => sound names chain.behind
      exact ⟨_, .keep keeps runs⟩
  | @file dir? line replaced others rest path text file opens readable _ _ inner behind =>
      have opened : Sound (file.name :: active) :=
        sound [file.name] (.cons List.mem_cons_self opens .nil)
      have admits : Admits active file text :=
        ⟨(List.nodup_cons.mp opened.1).1, opened.2, readable⟩
      have within (names : List String)
          (chain : Chain searchPath (Path.parent? path) (lines text.toList) names) :
          Sound (names.reverse ++ file.name :: active) := by
        have longer : Chain searchPath dir? (line :: rest) (file.name :: names) := by
          refine .cons List.mem_cons_self opens ?_
          rw [readable]
          exact chain
        have all := sound _ longer
        rw [List.reverse_cons, List.append_assoc] at all
        exact all
      obtain ⟨history, runs⟩ := inner within
      obtain ⟨later, further⟩ := behind fun names chain => sound names chain.behind
      exact ⟨_, .splice opens admits runs further⟩

/-! ### Sources -/

/-- The open files before the expansion of a source: its own, if it comes from one. -/
def activeAt (searchPath : SearchPath) (origin? : Option String) : List String :=
  origin?.toList.map searchPath.files.nameAt

private theorem sound_activeAt (origin? : Option String) : Sound (activeAt searchPath origin?) := by
  cases origin? with
  | none => exact ⟨List.nodup_nil, Nat.zero_le _⟩
  | some origin => exact ⟨List.nodup_singleton _, show 1 ≤ maxActive by decide⟩

theorem sound_append_iff : Sound (active ++ names) ↔ Sound (names.reverse ++ active) := by
  have perm : (active ++ names).Perm (names.reverse ++ active) :=
    List.perm_append_comm.trans ((List.reverse_perm names).symm.append_right active)
  rw [Sound, Sound, perm.nodup_iff, perm.length_eq]

/-- The expansion of a source as a run. -/
structure Controlled (searchPath : SearchPath) (origin? : Option String) (source : String) :
    Prop where
  /-- There is a run from the source to an end. -/
  ends : ∃ result history, Runs searchPath (origin?.bind Path.parent?) 0 (lines source.toList)
    (activeAt searchPath origin?) result (activeAt searchPath origin?) history
  /-- Every run gives what the expansion gives, and on its way no file is open twice and no more
  than `maxActive` are. -/
  sound : ∀ {result : Except Fault (List Char)} {after : List String}
    {history : List (List String)},
    Runs searchPath (origin?.bind Path.parent?) 0 (lines source.toList)
      (activeAt searchPath origin?) result after history →
    expand searchPath origin? source =
        (result.map String.ofList).mapError Fault.diagnostic ∧
      ∀ moment ∈ activeAt searchPath origin? :: history,
        moment.Nodup ∧ moment.length ≤ maxActive
  /-- Every run from any open files, so also that of each included file, leaves the open files as
  they were, whether it succeeds or fails. -/
  restored : ∀ {dir? : Option String} {offset : Nat} {text : List (List Char)}
    {active after : List String} {result : Except Fault (List Char)}
    {history : List (List String)},
    Runs searchPath dir? offset text active result after history → after = active
  /-- The expansion succeeds exactly if every include can be replaced, no matter what else is
  included, and every chain of includes from the source has different files and at most `maxActive`
  of them, the file of the source counted. -/
  expands : ∀ out : List Char, expand searchPath origin? source = .ok (String.ofList out) ↔
    Spliced searchPath (origin?.bind Path.parent?) (lines source.toList) out ∧
    ∀ names, Chain searchPath (origin?.bind Path.parent?) (lines source.toList) names →
      (activeAt searchPath origin? ++ names).Nodup ∧
        (activeAt searchPath origin? ++ names).length ≤ maxActive

private theorem expand_eq (searchPath : SearchPath) (origin? : Option String) (source : String) :
    expand searchPath origin? source =
      ((expandLines searchPath (expanderBeside searchPath (activeAt searchPath origin?))
        (activeAt searchPath origin?) (origin?.bind Path.parent?) 0
        (lines source.toList)).map String.ofList).mapError Fault.diagnostic := by
  rw [← expandText_eq]
  unfold expand activeAt
  dsimp only
  cases expandText searchPath _ _ _ _ <;> rfl

theorem expand_of_runs {origin? : Option String} {source : String}
    (runs : Runs searchPath (origin?.bind Path.parent?) 0 (lines source.toList)
      (activeAt searchPath origin?) result after history) :
    expand searchPath origin? source =
      (result.map String.ofList).mapError Fault.diagnostic := by
  rw [expand_eq, ← runs.result_eq]

/-- Expansion of includes terminates and lets in only acyclic includes of bounded depth, with every
one expanded each time. -/
theorem expansion_controlled (searchPath : SearchPath) (origin? : Option String)
    (source : String) : Controlled searchPath origin? source := by
  have start : Sound (activeAt searchPath origin?) := sound_activeAt origin?
  obtain ⟨result, history, runs⟩ := exists_runs searchPath (origin?.bind Path.parent?) 0
    (lines source.toList) (activeAt searchPath origin?)
  refine ⟨⟨result, history, runs⟩, ?_, Runs.restores, ?_⟩
  · intro result after history runs
    exact ⟨expand_of_runs runs, List.forall_mem_cons.mpr ⟨start, runs.sound start⟩⟩
  · intro out
    constructor
    · intro expanded
      rw [expand_of_runs runs] at expanded
      cases result with
      | error fault => cases expanded
      | ok text =>
          obtain rfl : text = out := String.ofList_injective (Except.ok.inj expanded)
          refine ⟨runs.spliced, ?_⟩
          intro names chain
          exact sound_append_iff.mpr (runs.sound_chain start chain)
    · rintro ⟨spliced, chains⟩
      obtain ⟨history, runs⟩ := spliced.exists_runs
        fun names chain => sound_append_iff.mp (chains names chain)
      exact expand_of_runs runs

end MiniC.Include
