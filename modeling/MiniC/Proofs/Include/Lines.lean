import MiniC.Include

/-!
The lines of a text.

Every line but the last ends with a newline, and a newline stands nowhere else in a
line. So texts can be put together line by line where the first of them is empty or
ends with a newline, and a property that every text has can be shown along its lines.
-/

namespace MiniC.Include

variable {body text first second : List Char} {source : List (List Char)}

theorem lines_open (nonempty : body ≠ []) (inside : '\n' ∉ body) : lines body = [body] := by
  induction body with
  | nil => exact absurd rfl nonempty
  | cons char body ih =>
      rw [List.mem_cons, not_or] at inside
      rw [lines, if_neg (Ne.symm inside.1)]
      cases body with
      | nil => rfl
      | cons next body => rw [ih (List.cons_ne_nil next body) inside.2]

theorem lines_closed (inside : '\n' ∉ body) (text : List Char) :
    lines (body ++ '\n' :: text) = (body ++ ['\n']) :: lines text := by
  induction body with
  | nil => rw [List.nil_append, lines, if_pos rfl, List.nil_append]
  | cons char body ih =>
      rw [List.mem_cons, not_or] at inside
      rw [List.cons_append, lines, if_neg (Ne.symm inside.1), ih inside.2]
      rfl

/-- Induction along the lines of a text. -/
@[elab_as_elim]
theorem byLines {motive : List Char → Prop} (text : List Char) (empty : motive [])
    (last : ∀ body, body ≠ [] → '\n' ∉ body → motive body)
    (more : ∀ body text, '\n' ∉ body → motive text → motive (body ++ '\n' :: text)) :
    motive text := by
  -- The characters since the last newline are carried along.
  have from_ (text : List Char) : ∀ body, '\n' ∉ body → motive (body ++ text) := by
    induction text with
    | nil =>
        intro body inside
        rw [List.append_nil]
        by_cases nonempty : body = []
        · rw [nonempty]
          exact empty
        · exact last body nonempty inside
    | cons char text ih =>
        intro body inside
        by_cases newline : char = '\n'
        · rw [newline]
          exact more body text inside (ih [] List.not_mem_nil)
        · rw [List.append_cons]
          apply ih
          rw [List.mem_append, List.mem_singleton, not_or]
          exact ⟨inside, Ne.symm newline⟩
  exact from_ text [] List.not_mem_nil

inductive Lined : List (List Char) → Prop where
  | nil : Lined []
  | last {body : List Char} : body ≠ [] → '\n' ∉ body → Lined [body]
  | cons {body : List Char} {rest : List (List Char)} : '\n' ∉ body → Lined rest →
      Lined ((body ++ ['\n']) :: rest)

theorem Lined.tail {line : List Char} (lined : Lined (line :: source)) : Lined source := by
  cases lined with
  | last _ _ => exact .nil
  | cons _ lined => exact lined

theorem lined_lines (text : List Char) : Lined (lines text) := by
  induction text using byLines with
  | empty => exact .nil
  | last body nonempty inside =>
      rw [lines_open nonempty inside]
      exact .last nonempty inside
  | more body text inside ih =>
      rw [lines_closed inside]
      exact .cons inside ih

theorem lines_flatten (text : List Char) : (lines text).flatten = text := by
  induction text using byLines with
  | empty => rfl
  | last body nonempty inside => rw [lines_open nonempty inside, List.flatten_singleton]
  | more body text inside ih =>
      rw [lines_closed inside, List.flatten_cons, ih, List.append_assoc, List.singleton_append]

/-- Behind a newline another line begins. -/
theorem lines_append_newline (first second : List Char) :
    lines (first ++ '\n' :: second) = lines (first ++ ['\n']) ++ lines second := by
  induction first using byLines with
  | empty => rfl
  | last body _ inside => rw [lines_closed inside, lines_closed inside]; rfl
  | more body text inside ih =>
      rw [List.append_assoc, List.append_assoc, List.cons_append, List.cons_append,
        lines_closed inside, lines_closed inside, ih, List.cons_append]

private theorem exists_of_endsLine (ended : endsLine text = true) :
    ∃ init, text = init ++ ['\n'] := by
  rw [endsLine, decide_eq_true_eq] at ended
  exact List.getLast?_eq_some_iff.mp ended

theorem endsLine_concat (text : List Char) : endsLine (text ++ ['\n']) = true := by
  rw [endsLine, List.getLast?_concat, decide_eq_true_eq]

theorem endsLine_open (inside : '\n' ∉ body) : endsLine body = false := by
  rw [endsLine, decide_eq_false_iff_not]
  intro ended
  exact inside (List.mem_of_getLast? ended)

theorem lines_append (ended : endsLine first = true) (second : List Char) :
    lines (first ++ second) = lines first ++ lines second := by
  obtain ⟨init, rfl⟩ := exists_of_endsLine ended
  rw [List.append_assoc, List.singleton_append]
  exact lines_append_newline init second

end MiniC.Include
