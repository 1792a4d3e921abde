import MiniC.Token.Lexer

/-!
Where the lexer moves.

A reader moves over a part of the text and counts its bytes, and a fault that it
reports spans a part of what lies behind the start of the piece.
-/

namespace MiniC

namespace Text

theorem byteSize_append (first second : List Char) :
    byteSize (first ++ second) = byteSize first + byteSize second := by
  induction first with
  | nil => exact (Nat.zero_add _).symm
  | cons char first ih => rw [List.cons_append, byteSize, byteSize, ih, Nat.add_assoc]

theorem utf8Size_narrow {char : Char} (narrow : char.toNat < 128) : char.utf8Size = 1 := by
  rw [Char.utf8Size_eq_one_iff, UInt32.le_iff_toNat_le]
  exact Nat.le_of_lt_succ narrow

theorem dropBytes?_cons {char : Char} {offset : Nat} {rest : List Char}
    (fits : char.utf8Size ≤ offset) :
    dropBytes? offset (char :: rest) = dropBytes? (offset - char.utf8Size) rest := by
  cases offset with
  | zero => exact absurd fits (Nat.not_le_of_lt char.utf8Size_pos)
  | succ offset => rw [dropBytes?, if_pos fits]

theorem dropBytes?_append (before rest : List Char) :
    dropBytes? (byteSize before) (before ++ rest) = some rest := by
  induction before with
  | nil => rw [byteSize, dropBytes?, List.nil_append]
  | cons char before ih =>
      rw [byteSize, List.cons_append, dropBytes?_cons (Nat.le_add_right _ _), Nat.add_sub_cancel_left,
        ih]

theorem takeBytes?_append (text rest : List Char) :
    takeBytes? (byteSize text) (text ++ rest) = some text := by
  induction text with
  | nil => rw [byteSize, takeBytes?]
  | cons char text ih =>
      obtain ⟨size, same⟩ := Nat.exists_eq_succ_of_ne_zero (Nat.ne_of_gt char.utf8Size_pos)
      have whole : byteSize (char :: text) = size + byteSize text + 1 := by
        rw [byteSize, same, Nat.succ_add]
      rw [whole, List.cons_append, takeBytes?, if_pos (by omega)]
      have left : size + byteSize text + 1 - char.utf8Size = byteSize text := by omega
      rw [left, ih, Option.map_some]

theorem slice?_append (before text rest : List Char) :
    slice? (byteSize before) (byteSize before + byteSize text) (before ++ (text ++ rest)) =
      some text := by
  rw [slice?, if_pos (Nat.le_add_right _ _), dropBytes?_append, Nat.add_sub_cancel_left]
  exact takeBytes?_append text rest

namespace Cursor

variable {here middle after : Cursor}

structure Over (here : Cursor) (text : List Char) (after : Cursor) : Prop where
  rest_eq : here.rest = text ++ after.rest
  offset_eq : after.offset = here.offset + byteSize text

/-- The second cursor stands behind the first, or at the same place. -/
def Leads (here after : Cursor) : Prop := ∃ text, here.Over text after

theorem Leads.refl (here : Cursor) : here.Leads here := ⟨[], rfl, rfl⟩

theorem Over.trans {first second : List Char} (before : here.Over first middle)
    (behind : middle.Over second after) : here.Over (first ++ second) after := by
  constructor
  · rw [before.rest_eq, behind.rest_eq, List.append_assoc]
  · rw [behind.offset_eq, before.offset_eq, byteSize_append, Nat.add_assoc]

theorem Leads.trans (before : here.Leads middle) (behind : middle.Leads after) :
    here.Leads after := by
  obtain ⟨first, passed⟩ := before
  obtain ⟨second, further⟩ := behind
  exact ⟨first ++ second, passed.trans further⟩

theorem Leads.offset_le (leads : here.Leads after) : here.offset ≤ after.offset := by
  obtain ⟨text, passed⟩ := leads
  rw [passed.offset_eq]
  exact Nat.le_add_right _ _

theorem Leads.length_le (leads : here.Leads after) : after.rest.length ≤ here.rest.length := by
  obtain ⟨text, passed⟩ := leads
  rw [passed.rest_eq, List.length_append]
  exact Nat.le_add_left _ _

/-- At a place in a source the offset counts what stands before it. -/
theorem Leads.exists_before {source : List Char} (leads : (start source).Leads here) :
    ∃ before, source = before ++ here.rest ∧ here.offset = byteSize before := by
  obtain ⟨before, whole, counted⟩ := leads
  exact ⟨before, whole, counted.trans (Nat.zero_add _)⟩

/-- A text between two places in a source is cut out by their offsets. -/
theorem slice?_of_over {source text : List Char} (leads : (start source).Leads here)
    (passed : here.Over text after) : slice? here.offset after.offset source = some text := by
  obtain ⟨before, whole, offset⟩ := leads.exists_before
  rw [passed.offset_eq, offset, whole, passed.rest_eq]
  exact slice?_append before text after.rest

theorem over_advance {char : Char} {rest : List Char} (next : here.rest = char :: rest) :
    here.Over [char] here.advance := by
  obtain ⟨offset, _⟩ := here
  cases next
  exact ⟨rfl, rfl⟩

theorem leads_advance (here : Cursor) : here.Leads here.advance := by
  cases next : here.rest with
  | nil =>
      have same : here.advance = here := by
        rw [advance, next]
      rw [same]
      exact .refl here
  | cons char rest => exact ⟨[char], over_advance next⟩

theorem leads_skip (count : Nat) (here : Cursor) : here.Leads (skip count here) := by
  induction count generalizing here with
  | zero => exact .refl here
  | succ count ih => exact (leads_advance here).trans (ih here.advance)

theorem over_takeWhile (test : Char → Bool) (here : Cursor) :
    here.Over (here.takeWhile test).1 (here.takeWhile test).2 :=
  ⟨List.takeWhile_append_dropWhile.symm, rfl⟩

theorem leads_takeWhile (test : Char → Bool) (here : Cursor) :
    here.Leads (here.takeWhile test).2 :=
  ⟨_, over_takeWhile test here⟩

theorem advance_leads_takeWhile {test : Char → Bool} (next : here.nextIs test = true) :
    here.advance.Leads (here.takeWhile test).2 := by
  obtain ⟨offset, rest⟩ := here
  cases rest with
  | nil => cases next
  | cons char rest =>
      have passes : test char = true := next
      refine ⟨rest.takeWhile test, ?_, ?_⟩
      · rw [takeWhile, List.dropWhile_cons_of_pos passes]
        exact List.takeWhile_append_dropWhile.symm
      · rw [takeWhile, List.takeWhile_cons_of_pos passes, byteSize, ← Nat.add_assoc]
        rfl

def Spans (here : Cursor) (span : Span) : Prop :=
  ∃ left right, here.Leads left ∧ left.Leads right ∧ span = ⟨left.offset, right.offset⟩

theorem Spans.behind {span : Span} (spans : middle.Spans span) (leads : here.Leads middle) :
    here.Spans span := by
  obtain ⟨left, right, ahead, between, same⟩ := spans
  exact ⟨left, right, leads.trans ahead, between, same⟩

theorem Leads.spans (leads : here.Leads after) : here.Spans ⟨here.offset, after.offset⟩ :=
  ⟨here, after, .refl here, leads, rfl⟩

end Cursor
end Text

namespace Lexer

open Text (Cursor)

variable {start here body tail after : Cursor}

/-- What a reader reports lies behind the cursor. -/
def Reports (start : Cursor) (faults : List Diagnostic) : Prop :=
  ∀ fault ∈ faults, start.Spans fault.span

theorem Reports.none (start : Cursor) : Reports start [] := List.forall_mem_nil _

theorem Reports.one {message : String} {span : Span} (spans : start.Spans span) :
    Reports start [⟨.lexer, message, span⟩] := by
  intro fault listed
  cases List.mem_singleton.mp listed
  exact spans

theorem Reports.append {first second : List Diagnostic} (before : Reports start first)
    (behind : Reports start second) : Reports start (first ++ second) := by
  intro fault listed
  rcases List.mem_append.mp listed with inFirst | inSecond
  · exact before fault inFirst
  · exact behind fault inSecond

structure Piece.Moves (start here : Cursor) (piece : Piece) : Prop where
  leads : here.Leads piece.after
  reports : start.Leads here → Reports start piece.faults

namespace Piece.Moves

theorem gap (leads : here.Leads after) : (Piece.gap after).Moves start here :=
  ⟨leads, fun _ => .none start⟩

theorem found {token : Token} (leads : here.Leads after) :
    (Piece.found token after).Moves start here :=
  ⟨leads, fun _ => .none start⟩

theorem failed {message : String} (leads : here.Leads after) :
    (Piece.failed message start.offset after).Moves start here :=
  ⟨leads, fun ahead => .one (ahead.trans leads).spans⟩

theorem behind {piece : Piece} (leads : here.Leads after) (moves : piece.Moves start after) :
    piece.Moves start here :=
  ⟨leads.trans moves.leads, fun ahead => moves.reports (ahead.trans leads)⟩

end Piece.Moves

/-- A comment ends with the first closing mark behind its start. -/
theorem closeComment?_over {text : List Char} {offset : Nat}
    (found : closeComment? offset text = some after) :
    ∃ body, ¬ ['*', '/'] <:+: body ∧ Cursor.Over ⟨offset, text⟩ (body ++ ['*', '/']) after := by
  induction text generalizing offset with
  | nil => cases found
  | cons char rest ih =>
      rw [closeComment?] at found
      split at found
      · rename_i closes
        obtain ⟨star, slash⟩ := Bool.and_eq_true_iff.mp closes
        obtain ⟨behind, rfl⟩ : ∃ behind, rest = '/' :: behind :=
          List.head?_eq_some_iff.mp (beq_iff_eq.mp slash)
        cases of_decide_eq_true star
        cases found
        exact ⟨[], by decide, rfl, rfl⟩
      · rename_i goesOn
        obtain ⟨body, unclosed, passed⟩ := ih found
        refine ⟨char :: body, ?_, (Cursor.over_advance rfl).trans passed⟩
        intro inside
        rcases List.infix_cons_iff.mp inside with ⟨more, here⟩ | later
        · cases here
          have next : rest = '/' :: (more ++ ['*', '/'] ++ after.rest) := passed.rest_eq
          rw [next] at goesOn
          exact goesOn rfl
        · exact unclosed later

private theorem readBlockComment_moves (start body : Cursor) :
    (readBlockComment start.offset body).Moves start body := by
  unfold readBlockComment
  split
  · rename_i closed
    obtain ⟨_, _, passed⟩ := closeComment?_over closed
    exact .gap ⟨_, passed⟩
  · exact .failed ⟨body.rest, (List.append_nil _).symm, rfl⟩

theorem finishInteger_after (start : Nat) (spelling : List Char) (value? : Option Nat)
    (based : Bool) (here : Cursor) :
    (finishInteger start spelling value? based here).after =
      ((here.takeWhile fun char => isUnsignedSuffix char || isLongSuffix char).2.takeWhile
        isWordChar).2 := by
  simp only [finishInteger]
  split
  · rfl
  · split <;> rfl

theorem finishInteger_moves (start here : Cursor) (spelling : List Char) (value? : Option Nat)
    (based : Bool) : (finishInteger start.offset spelling value? based here).Moves start here := by
  have moved := (Cursor.leads_takeWhile _ here).trans
    (Cursor.leads_takeWhile isWordChar (here.takeWhile fun char =>
      isUnsignedSuffix char || isLongSuffix char).2)
  simp only [finishInteger]
  split
  · exact .failed moved
  · split
    · exact .found moved
    · exact .failed moved

theorem readMantissa_leads (first : Char) (tail : Cursor) :
    tail.Leads (readMantissa first tail).after := by
  have digits := Cursor.leads_takeWhile isDigit tail
  simp only [readMantissa]
  split
  · exact digits
  · split
    · exact digits.trans ((Cursor.leads_advance _).trans (Cursor.leads_takeWhile isDigit _))
    · exact digits

/-- Reading one of two marks, or none. A sign and the suffix of a floating-point number are read in
this way. -/
def readEither (first second : Char → Bool) (here : Cursor) : Bool × Cursor :=
  if here.nextIs first then (true, here.advance)
  else if here.nextIs second then (false, here.advance)
  else (false, here)

private theorem readEither_leads (first second : Char → Bool) (here : Cursor) :
    here.Leads (readEither first second here).2 := by
  unfold readEither
  split
  · exact Cursor.leads_advance here
  · split
    · exact Cursor.leads_advance here
    · exact .refl here

theorem readSign_leads (here : Cursor) : here.Leads (readSign here).2 :=
  readEither_leads _ _ here

theorem readExponent?_leads {exponent : Int} (found : readExponent? here = some (exponent, after)) :
    here.Leads after := by
  simp only [readExponent?] at found
  split at found
  · split at found
    · cases found
    · cases found
      exact (Cursor.leads_advance here).trans
        ((readSign_leads _).trans (Cursor.leads_takeWhile isDigit _))
  · cases found

theorem readFloatSuffix_leads (here : Cursor) : here.Leads (readFloatSuffix here).2 :=
  readEither_leads _ _ here

theorem readDecimal_moves (start : Cursor) (first : Char) (tail : Cursor) :
    (readDecimal start.offset first tail).Moves start (readMantissa first tail).after := by
  simp only [readDecimal]
  split
  · refine .found (.trans ?_ (readFloatSuffix_leads _))
    cases found : readExponent? (readMantissa first tail).after with
    | none => exact .refl _
    | some pair => exact readExponent?_leads found
  · exact finishInteger_moves start _ _ _ _

private theorem readNumber_moves (start : Cursor) (first : Char) (tail : Cursor) :
    (readNumber start.offset first tail).Moves start tail := by
  unfold readNumber
  split
  · exact (finishInteger_moves start _ _ _ _).behind
      ((Cursor.leads_advance tail).trans (Cursor.leads_takeWhile isHexDigit _))
  · exact (readDecimal_moves start first tail).behind (readMantissa_leads first tail)

def LiteralChar.Moves (start here : Cursor) : LiteralChar → Prop
  | .found _ faults after => here.Leads after ∧ (start.Leads here → Reports start faults)
  | .missing after => here.Leads after
  | .aborted => True

private theorem readHexEscape_moves (ahead : here.Leads tail) :
    (readHexEscape start.offset tail).Moves start here := by
  have moved := ahead.trans (Cursor.leads_takeWhile isHexDigit tail)
  simp only [readHexEscape]
  split
  · exact ⟨moved, fun _ => .none start⟩
  · exact ⟨moved, fun leads => .one (leads.trans moved).spans⟩

private theorem readEscape_moves {rest : List Char} (slash : here.rest = '\\' :: rest) :
    (readEscape start.offset here.advance).Moves start here := by
  have ahead := Cursor.over_advance slash
  unfold readEscape
  split
  · exact ⟨_, ahead⟩
  · rename_i char behind next
    have further := Cursor.over_advance next
    have moved : here.Leads here.advance.advance := ⟨_, ahead.trans further⟩
    dsimp only
    split
    · exact ⟨moved, fun _ => .none start⟩
    · split
      · exact readHexEscape_moves moved
      · split
        · rename_i narrow
          refine ⟨moved, fun leads => .one ⟨here, _, leads, moved, ?_⟩⟩
          rw [further.offset_eq, ahead.offset_eq, Text.byteSize, Text.byteSize, Text.byteSize,
            Text.byteSize, Text.utf8Size_narrow narrow]
          rfl
        · trivial

theorem readLiteralChar_moves (start here : Cursor) :
    (readLiteralChar start.offset here).Moves start here := by
  unfold readLiteralChar
  split
  · exact .refl here
  · rename_i char rest next
    split
    · rename_i slash
      exact readEscape_moves (slash ▸ next)
    · exact ⟨Cursor.leads_advance here, fun _ => .none start⟩

theorem readStringBody_moves {text : List Char} {faults : List Diagnostic}
    (found : readStringBody start.offset here = some (text, faults, after)) :
    here.Leads after ∧ (start.Leads here → Reports start faults) := by
  fun_induction readStringBody start.offset here generalizing text faults after with
  | case1 here _ =>
      cases found
      exact ⟨Cursor.leads_advance here, fun _ => .none start⟩
  | case2 here _ _ =>
      cases found
      exact ⟨.refl here, fun leads => .one leads.spans⟩
  | case3 => cases found
  | case4 here _ _ behind missing =>
      cases found
      have moved := readLiteralChar_moves start here
      rw [missing] at moved
      exact ⟨moved, fun leads => .one (leads.trans moved).spans⟩
  | case5 here _ _ code extra behind read _ ih =>
      obtain ⟨⟨innerText, innerFaults, innerAfter⟩, inner, same⟩ := Option.map_eq_some_iff.mp found
      cases same
      have moved := readLiteralChar_moves start here
      rw [read] at moved
      obtain ⟨further, reports⟩ := ih inner
      exact ⟨moved.1.trans further, fun leads =>
        (moved.2 leads).append (reports (leads.trans moved.1))⟩

private theorem readString_moves {piece : Piece}
    (found : readString start.offset body = .piece piece) :
    piece.Moves start body := by
  unfold readString at found
  split at found
  · cases found
  · rename_i inner
    cases found
    exact ⟨(readStringBody_moves inner).1, (readStringBody_moves inner).2⟩

private theorem readChar_moves {piece : Piece} (found : readChar start.offset body = .piece piece) :
    piece.Moves start body := by
  have moved := readLiteralChar_moves start body
  unfold readChar at found
  split at found
  · cases found
    exact .failed (.refl body)
  · split at found
    · cases found
    · rename_i missing
      cases found
      rw [missing] at moved
      exact .failed moved
    · rename_i read
      rw [read] at moved
      split at found
      · cases found
        exact ⟨moved.1.trans (Cursor.leads_advance _), moved.2⟩
      · cases found
        exact ⟨moved.1, fun leads => (moved.2 leads).append (.one (leads.trans moved.1).spans)⟩

/-! ### Pieces -/

private theorem readMark_moves (here tail : Cursor) (first : Char) :
    (readMark here tail first).Moves here tail := by
  unfold readMark
  split
  · exact .found (Cursor.leads_skip _ tail)
  · split
    · exact .failed (.refl tail)
    · exact .failed (.refl tail)

theorem readPiece_moves {first : Char} {piece : Piece}
    (found : readPiece here first = .piece piece) : piece.Moves here here.advance := by
  simp only [readPiece] at found
  repeat' split at found
  · cases found
    exact .gap (Cursor.leads_takeWhile _ _)
  · cases found
    exact .gap (Cursor.leads_takeWhile _ _)
  · cases found
    exact (readBlockComment_moves here _).behind (Cursor.leads_advance _)
  · cases found
    exact readNumber_moves here first _
  · cases found
    exact .found (Cursor.leads_takeWhile _ _)
  · exact readString_moves found
  · exact readChar_moves found
  · cases found
    exact readMark_moves here _ first

end Lexer
end MiniC
