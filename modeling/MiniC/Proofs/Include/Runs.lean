import MiniC.Include

/-!
Runs of the expansion of includes.

Here the open files are a variable of the run. An include puts the name of its file
in front of them and takes the first name off again behind the file, whether its
expansion went well or not. Nothing but the open files bounds a run, and a run
keeps every value that the variable takes.
-/

namespace MiniC.Include

section Lines

variable (searchPath : SearchPath) (dir? : Option String)

/-- The line includes the file, which is found at the path. -/
def Opens (line : List Char) (path : String) (file : File) : Prop :=
  ∃ directive, readDirective line = .ok (some directive) ∧
    searchPath.resolve dir? directive = .ok (some (path, file))

/-- The text takes the place of a line that includes no file. -/
inductive Keeps : List Char → List Char → Prop where
  | plain {line : List Char} : readDirective line = .ok none → Keeps line line
  | blank {line : List Char} {directive : Directive} :
      readDirective line = .ok (some directive) →
      searchPath.resolve dir? directive = .ok none →
      Keeps line (if endsLine line then ['\n'] else [])

/-- The line cannot be expanded, whatever files are open. -/
inductive Refuses : List Char → Cause → Prop where
  | directive {line : List Char} {cause : Cause} : readDirective line = .error cause →
      Refuses line cause
  | target {line : List Char} {directive : Directive} {cause : Cause} :
      readDirective line = .ok (some directive) →
      searchPath.resolve dir? directive = .error cause → Refuses line cause

private theorem line_cases (line : List Char) :
    (∃ text, Keeps searchPath dir? line text) ∨ (∃ cause, Refuses searchPath dir? line cause) ∨
      ∃ path file, Opens searchPath dir? line path file := by
  cases read : readDirective line with
  | error cause => exact .inr (.inl ⟨cause, .directive read⟩)
  | ok directive? =>
      cases directive? with
      | none => exact .inl ⟨line, .plain read⟩
      | some directive =>
          cases resolved : searchPath.resolve dir? directive with
          | error cause => exact .inr (.inl ⟨cause, .target read resolved⟩)
          | ok found? =>
              cases found? with
              | none => exact .inl ⟨_, .blank read resolved⟩
              | some found => exact .inr (.inr ⟨found.1, found.2, directive, read, resolved⟩)

end Lines

/-- Why the file at the path cannot be opened beside the open ones. -/
inductive Blocked (active : List String) (path : String) (file : File) : Cause → Prop where
  | circular : file.name ∈ active → Blocked active path file (.circular path)
  | tooDeep : file.name ∉ active → maxActive ≤ active.length → Blocked active path file .tooDeep
  | unreadable {error : FileError} : file.name ∉ active → active.length < maxActive →
      file.contents = .error error → Blocked active path file (.unreadable path error)

/-- The file can be opened beside the open ones and has the text. -/
structure Admits (active : List String) (file : File) (text : String) : Prop where
  new : file.name ∉ active
  room : active.length < maxActive
  readable : file.contents = .ok text

private theorem blocked_or_admits (active : List String) (path : String) (file : File) :
    (∃ cause, Blocked active path file cause) ∨ ∃ text, Admits active file text := by
  by_cases open? : file.name ∈ active
  · exact .inl ⟨_, .circular open?⟩
  · by_cases room : active.length < maxActive
    · cases readable : file.contents with
      | error error => exact .inl ⟨_, .unreadable open? room readable⟩
      | ok text => exact .inr ⟨text, open?, room, readable⟩
    · exact .inl ⟨_, .tooDeep open? (Nat.not_lt.mp room)⟩

def closeLine (text : List Char) : List Char := if endsLine text then text else text ++ ['\n']

/-! ### Runs -/

/-- A run over lines that start at the offset of their text: the open files before it, its result,
the open files after it and the values that they take on the way. -/
inductive Runs (searchPath : SearchPath) : Option String → Nat → List (List Char) → List String →
    Except Fault (List Char) → List String → List (List String) → Prop where
  | finish {dir? : Option String} {offset : Nat} {active : List String} :
      Runs searchPath dir? offset [] active (.ok []) active []
  | keep {dir? : Option String} {offset : Nat} {line text : List Char} {rest : List (List Char)}
      {active after : List String} {result : Except Fault (List Char)}
      {history : List (List String)} :
      Keeps searchPath dir? line text →
      Runs searchPath dir? (offset + Text.byteSize line) rest active result after history →
      Runs searchPath dir? offset (line :: rest) active (result.map (text ++ ·)) after history
  | refuse {dir? : Option String} {offset : Nat} {line : List Char} {rest : List (List Char)}
      {active : List String} {cause : Cause} :
      Refuses searchPath dir? line cause →
      Runs searchPath dir? offset (line :: rest) active (.error ⟨cause, lineSpan offset line⟩)
        active []
  | block {dir? : Option String} {offset : Nat} {line : List Char} {rest : List (List Char)}
      {active : List String} {path : String} {file : File} {cause : Cause} :
      Opens searchPath dir? line path file → Blocked active path file cause →
      Runs searchPath dir? offset (line :: rest) active (.error ⟨cause, lineSpan offset line⟩)
        active []
  | fail {dir? : Option String} {offset : Nat} {line : List Char} {rest : List (List Char)}
      {active inner : List String} {path text : String} {file : File} {fault : Fault}
      {history : List (List String)} :
      Opens searchPath dir? line path file → Admits active file text →
      Runs searchPath (Path.parent? path) 0 (lines text.toList) (file.name :: active)
        (.error fault) inner history →
      Runs searchPath dir? offset (line :: rest) active
        (.error ⟨.within path fault.cause, lineSpan offset line⟩) inner.tail
        ((file.name :: active) :: (history ++ [inner.tail]))
  | splice {dir? : Option String} {offset : Nat} {line : List Char} {rest : List (List Char)}
      {active inner after : List String} {path text : String} {file : File}
      {expanded : List Char} {result : Except Fault (List Char)}
      {history later : List (List String)} :
      Opens searchPath dir? line path file → Admits active file text →
      Runs searchPath (Path.parent? path) 0 (lines text.toList) (file.name :: active)
        (.ok expanded) inner history →
      Runs searchPath dir? (offset + Text.byteSize line) rest inner.tail result after later →
      Runs searchPath dir? offset (line :: rest) active (result.map (closeLine expanded ++ ·)) after
        ((file.name :: active) :: (history ++ inner.tail :: later))

variable {searchPath : SearchPath} {dir? : Option String} {offset : Nat}
  {source : List (List Char)} {active after : List String} {result : Except Fault (List Char)}
  {history : List (List String)}

/-- Every run leaves the open files as it found them. -/
theorem Runs.restores (runs : Runs searchPath dir? offset source active result after history) :
    after = active := by
  induction runs with
  | finish => rfl
  | keep _ _ ih => exact ih
  | refuse _ => rfl
  | block _ _ => rfl
  | fail _ _ _ ih => rw [ih, List.tail_cons]
  | splice _ _ _ _ inner behind => rw [behind, inner, List.tail_cons]

def Sound (active : List String) : Prop := active.Nodup ∧ active.length ≤ maxActive

theorem Admits.sound {file : File} {text : String} (admits : Admits active file text)
    (sound : Sound active) : Sound (file.name :: active) :=
  ⟨List.nodup_cons.mpr ⟨admits.new, sound.1⟩, admits.room⟩

theorem Runs.sound (runs : Runs searchPath dir? offset source active result after history)
    (sound : Sound active) : ∀ moment ∈ history, Sound moment := by
  induction runs with
  | finish => exact List.forall_mem_nil _
  | keep _ _ ih => exact ih sound
  | refuse _ => exact List.forall_mem_nil _
  | block _ _ => exact List.forall_mem_nil _
  | fail _ admits runs ih =>
      have opened := admits.sound sound
      rw [runs.restores, List.tail_cons]
      exact List.forall_mem_cons.mpr ⟨opened, List.forall_mem_append.mpr
        ⟨ih opened, List.forall_mem_singleton.mpr sound⟩⟩
  | splice _ admits runs _ inner behind =>
      have opened := admits.sound sound
      rw [runs.restores, List.tail_cons] at behind ⊢
      exact List.forall_mem_cons.mpr ⟨opened, List.forall_mem_append.mpr
        ⟨inner opened, List.forall_mem_cons.mpr ⟨sound, behind sound⟩⟩⟩

theorem expandLine_of_keeps {line text : List Char} (keeps : Keeps searchPath dir? line text)
    (inner? : Option Expander) : expandLine searchPath inner? active dir? line = .ok text := by
  cases keeps with
  | plain read =>
      rw [expandLine, read]
      rfl
  | blank read resolved =>
      simp only [expandLine, read, resolved, bind, Except.bind, pure, Except.pure]

theorem expandLine_of_refuses {line : List Char} {cause : Cause}
    (refuses : Refuses searchPath dir? line cause) (inner? : Option Expander) :
    expandLine searchPath inner? active dir? line = .error cause := by
  cases refuses with
  | directive read =>
      rw [expandLine, read]
      rfl
  | target read resolved =>
      simp only [expandLine, read, resolved, bind, Except.bind]

private theorem expandLine_of_opens {line : List Char} {path : String} {file : File}
    (opens : Opens searchPath dir? line path file) (inner? : Option Expander)
    (active : List String) :
    expandLine searchPath inner? active dir? line =
      (enter inner? active path file).map closeLine := by
  obtain ⟨directive, read, resolved⟩ := opens
  simp only [expandLine, read, resolved, bind, Except.bind]
  cases enter inner? active path file <;> rfl

def expanderBeside (searchPath : SearchPath) (active : List String) : Option Expander :=
  match maxActive - active.length with
  | 0 => none
  | budget + 1 => some (expandText searchPath budget)

theorem expandText_eq (searchPath : SearchPath) (active : List String) (dir? : Option String)
    (text : List Char) :
    expandText searchPath (maxActive - active.length) active dir? text =
      expandLines searchPath (expanderBeside searchPath active) active dir? 0 (lines text) := by
  unfold expanderBeside
  cases maxActive - active.length <;> rfl

private theorem expanderBeside_of_room (room : active.length < maxActive) (name : String) :
    expanderBeside searchPath active =
      some (expandText searchPath (maxActive - (name :: active).length)) := by
  obtain ⟨budget, same⟩ : ∃ budget, maxActive - active.length = budget + 1 :=
    Nat.exists_eq_succ_of_ne_zero (Nat.sub_ne_zero_of_lt room)
  have fewer : maxActive - (name :: active).length = budget := by
    rw [List.length_cons]
    omega
  rw [expanderBeside, same, fewer]

private theorem enter_of_blocked {path : String} {file : File} {cause : Cause}
    (blocked : Blocked active path file cause) :
    enter (expanderBeside searchPath active) active path file = .error cause := by
  cases blocked with
  | circular opened => exact if_pos opened
  | tooDeep new full =>
      have none : expanderBeside searchPath active = none := by
        rw [expanderBeside, Nat.sub_eq_zero_of_le full]
      unfold enter
      rw [if_neg new, none]
  | unreadable new room unreadable =>
      unfold enter
      rw [if_neg new, expanderBeside_of_room room "", unreadable]

private theorem enter_of_admits {path text : String} {file : File}
    (admits : Admits active file text) :
    enter (expanderBeside searchPath active) active path file =
      (expandLines searchPath (expanderBeside searchPath (file.name :: active))
        (file.name :: active) (Path.parent? path) 0 (lines text.toList)).mapError
          fun fault => .within path fault.cause := by
  unfold enter
  rw [if_neg admits.new, expanderBeside_of_room admits.room file.name, admits.readable]
  dsimp only
  rw [expandText_eq]
  cases expandLines searchPath _ _ _ _ _ <;> rfl

private theorem expandLines_of_ok {line text : List Char} {rest : List (List Char)}
    {inner? : Option Expander}
    (expanded : expandLine searchPath inner? active dir? line = .ok text) :
    expandLines searchPath inner? active dir? offset (line :: rest) =
      (expandLines searchPath inner? active dir? (offset + Text.byteSize line) rest).map
        (text ++ ·) := by
  rw [expandLines, expanded]
  dsimp only
  cases expandLines searchPath inner? active dir? (offset + Text.byteSize line) rest <;> rfl

private theorem expandLines_of_error {line : List Char} {rest : List (List Char)} {cause : Cause}
    {inner? : Option Expander}
    (refused : expandLine searchPath inner? active dir? line = .error cause) :
    expandLines searchPath inner? active dir? offset (line :: rest) =
      .error ⟨cause, lineSpan offset line⟩ := by
  rw [expandLines, refused]

theorem Runs.result_eq (runs : Runs searchPath dir? offset source active result after history) :
    result =
      expandLines searchPath (expanderBeside searchPath active) active dir? offset source := by
  induction runs with
  | finish => rfl
  | keep keeps _ ih => rw [expandLines_of_ok (expandLine_of_keeps keeps _), ih]
  | refuse refuses => rw [expandLines_of_error (expandLine_of_refuses refuses _)]
  | @block _ _ _ _ active _ _ _ opens blocked =>
      have refused := expandLine_of_opens opens (expanderBeside searchPath active) active
      rw [enter_of_blocked blocked] at refused
      rw [expandLines_of_error refused]
  | @fail _ _ _ _ active _ _ _ _ _ _ opens admits _ ih =>
      have refused := expandLine_of_opens opens (expanderBeside searchPath active) active
      rw [enter_of_admits admits, ← ih] at refused
      rw [expandLines_of_error refused]
  | @splice _ _ _ _ active _ _ _ _ _ _ _ _ _ opens admits runs _ inner behind =>
      have expanded := expandLine_of_opens opens (expanderBeside searchPath active) active
      rw [enter_of_admits admits, ← inner] at expanded
      rw [expandLines_of_ok expanded, behind, runs.restores, List.tail_cons]

/-- Every run comes to an end: a file is opened only beside fewer than `maxActive` others. -/
theorem exists_runs (searchPath : SearchPath) (dir? : Option String) (offset : Nat)
    (source : List (List Char)) (active : List String) :
    ∃ result history, Runs searchPath dir? offset source active result active history := by
  induction room : maxActive - active.length using Nat.strongRecOn
    generalizing dir? offset source active with
  | ind room files =>
      subst room
      induction source generalizing offset with
      | nil => exact ⟨_, _, .finish⟩
      | cons line rest behind =>
          obtain ⟨result, later, further⟩ := behind (offset + Text.byteSize line)
          rcases line_cases searchPath dir? line with ⟨text, keeps⟩ | ⟨cause, refuses⟩ |
            ⟨path, file, opens⟩
          · exact ⟨_, _, .keep keeps further⟩
          · exact ⟨_, _, .refuse refuses⟩
          · rcases blocked_or_admits active path file with ⟨cause, blocked⟩ | ⟨text, admits⟩
            · exact ⟨_, _, .block opens blocked⟩
            · have fewer : maxActive - (file.name :: active).length < maxActive - active.length :=
                Nat.sub_succ_lt_self _ _ admits.room
              obtain ⟨inner, history, runs⟩ := files _ fewer (Path.parent? path) 0
                (lines text.toList) (file.name :: active) rfl
              cases inner with
              | error fault => exact ⟨_, _, .fail opens admits runs⟩
              | ok expanded => exact ⟨_, _, .splice opens admits runs further⟩

end MiniC.Include
