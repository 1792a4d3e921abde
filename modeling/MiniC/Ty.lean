/-!
Types.

Numbers come in six kinds, ordered by promotion. Types are compared by
structure: two struct types are equal when their names and their members, in
order, are.
-/

namespace MiniC

/-- The numeric kinds, in promotion order from low to high. -/
inductive Kind where
  | i32
  | u32
  | i64
  | u64
  | f32
  | f64
deriving DecidableEq, Repr, Inhabited

namespace Kind

def all : List Kind := [i32, u32, i64, u64, f32, f64]

def rank : Kind → Nat
  | i32 => 0
  | u32 => 1
  | i64 => 2
  | u64 => 3
  | f32 => 4
  | f64 => 5

def isFloat : Kind → Bool
  | f32 | f64 => true
  | _ => false

def isInteger (kind : Kind) : Bool := !kind.isFloat

def isUnsigned : Kind → Bool
  | u32 | u64 => true
  | _ => false

def bits : Kind → Nat
  | i32 | u32 | f32 => 32
  | i64 | u64 | f64 => 64

def name : Kind → String
  | i32 => "i32"
  | u32 => "u32"
  | i64 => "i64"
  | u64 => "u64"
  | f32 => "f32"
  | f64 => "f64"

def promote (left right : Kind) : Kind :=
  if left.rank ≤ right.rank then right else left

end Kind

inductive Ty where
  | num (kind : Kind)
  | bool
  | str
  | array (element : Ty)
  | func (params : List Ty) (ret : Ty)
  | struct (name : String) (members : List (String × Ty))
  | void
deriving Inhabited

namespace Ty

mutual

def same : Ty → Ty → Bool
  | num left, num right => left = right
  | bool, bool => true
  | str, str => true
  | array left, array right => same left right
  | func leftParams leftRet, func rightParams rightRet =>
      sameList leftParams rightParams && same leftRet rightRet
  | struct leftName leftMembers, struct rightName rightMembers =>
      leftName = rightName && sameMembers leftMembers rightMembers
  | void, void => true
  | _, _ => false
termination_by structural left => left

def sameList : List Ty → List Ty → Bool
  | [], [] => true
  | left :: lefts, right :: rights => same left right && sameList lefts rights
  | _, _ => false
termination_by structural lefts => lefts

def sameMembers : List (String × Ty) → List (String × Ty) → Bool
  | [], [] => true
  | (leftName, left) :: lefts, (rightName, right) :: rights =>
      leftName = rightName && same left right && sameMembers lefts rights
  | _, _ => false
termination_by structural lefts => lefts

end

mutual

theorem same_iff : ∀ left right : Ty, same left right = true ↔ left = right
  | num left, right => by cases right <;> simp [same]
  | bool, right => by cases right <;> simp [same]
  | str, right => by cases right <;> simp [same]
  | array left, right => by cases right <;> simp [same, same_iff left]
  | func params ret, right => by
      cases right <;> simp [same, sameList_iff params, same_iff ret]
  | struct name members, right => by
      cases right <;> simp [same, sameMembers_iff members]
  | void, right => by cases right <;> simp [same]

theorem sameList_iff : ∀ left right : List Ty, sameList left right = true ↔ left = right
  | [], right => by cases right <;> simp [sameList]
  | first :: rest, right => by
      cases right <;> simp [sameList, same_iff first, sameList_iff rest]

theorem sameMembers_iff :
    ∀ left right : List (String × Ty), sameMembers left right = true ↔ left = right
  | [], right => by cases right <;> simp [sameMembers]
  | (name, first) :: rest, right => by
      cases right <;> simp [sameMembers, same_iff first, sameMembers_iff rest, Prod.ext_iff]

end

instance : DecidableEq Ty := fun left right => decidable_of_iff _ (same_iff left right)

def isNumeric : Ty → Bool
  | num _ => true
  | _ => false

def kind? : Ty → Option Kind
  | num kind => some kind
  | _ => none

def isReference : Ty → Bool
  | array _ | struct _ _ => true
  | _ => false

def element? : Ty → Option Ty
  | array element => some element
  | _ => none

def memberAt? (name : String) : List (String × Ty) → Option (Nat × Ty)
  | [] => none
  | (found, ty) :: rest =>
      if found = name then some (0, ty)
      else (memberAt? name rest).map fun (index, ty) => (index + 1, ty)

def member? (name : String) : Ty → Option (Nat × Ty)
  | struct _ members => memberAt? name members
  | _ => none

/-- Members with one more; a name that is there already keeps its place and takes the new type. -/
def addMember (name : String) (ty : Ty) : List (String × Ty) → List (String × Ty)
  | [] => [(name, ty)]
  | (found, old) :: rest =>
      if found = name then (found, ty) :: rest else (found, old) :: addMember name ty rest

/-- The struct type with the given members, later ones replacing earlier ones of the same name. -/
def structOf (name : String) (members : List (String × Ty)) : Ty :=
  struct name (members.foldl (fun found member => addMember member.1 member.2 found) [])

def promote? : Ty → Ty → Option Ty
  | num left, num right => some (num (left.promote right))
  | _, _ => none

def canAssign (target value : Ty) : Bool :=
  target = value || (target.isNumeric && value.isNumeric)

mutual

def text : Ty → String
  | num kind => kind.name
  | bool => "bool"
  | str => "string"
  | array element => text element ++ "[]"
  | func params ret => text ret ++ "(" ++ ", ".intercalate (texts params) ++ ")"
  | struct name _ => "struct " ++ name
  | void => "void"
termination_by structural ty => ty

def texts : List Ty → List String
  | [] => []
  | first :: rest => text first :: texts rest
termination_by structural tys => tys

end

def noCommonKind (left right : Ty) : String :=
  s!"no common numeric type for {left.text} and {right.text}"

end Ty
end MiniC
