import MiniC.Proofs.Typing.Unit
import MiniC.Proofs.Text.OneLine

/-!
Tidy types and scope trees, and what a lowering step comes to.

A type is tidy when the struct names in it are on one line; then so is its text. A lowering step
comes to a result that fits, or to a fault whose message is on one line.
-/

namespace MiniC

open Text (OneLine)

mutual

def Ty.Tidy : Ty → Prop
  | .array element => element.Tidy
  | .func params ret => Ty.AllTidy params ∧ ret.Tidy
  | .struct name members => OneLine name ∧ Ty.MembersTidy members
  | _ => True
termination_by structural ty => ty

def Ty.AllTidy : List Ty → Prop
  | [] => True
  | first :: rest => first.Tidy ∧ Ty.AllTidy rest
termination_by structural tys => tys

def Ty.MembersTidy : List (String × Ty) → Prop
  | [] => True
  | (_, first) :: rest => first.Tidy ∧ Ty.MembersTidy rest
termination_by structural members => members

end

theorem Kind.oneLine_name (kind : Kind) : OneLine kind.name := by
  cases kind <;> exact .literal rfl

namespace Ty

mutual

private theorem oneLine_text : ∀ ty : Ty, ty.Tidy → OneLine ty.text
  | .num kind, _ => kind.oneLine_name
  | .bool, _ => .literal rfl
  | .str, _ => .literal rfl
  | .array element, tidy => (oneLine_text element tidy).append (.literal rfl)
  | .func params ret, tidy =>
      .append
        (.append (.append (oneLine_text ret tidy.2) (.literal rfl))
          (.intercalate (.literal rfl) (oneLine_texts params tidy.1)))
        (.literal rfl)
  | .struct _ _, tidy => .append (.literal rfl) tidy.1
  | .void, _ => .literal rfl
termination_by structural ty => ty

private theorem oneLine_texts : ∀ tys : List Ty, Ty.AllTidy tys → ∀ text ∈ texts tys, OneLine text
  | [], _ => List.forall_mem_nil _
  | first :: rest, tidy =>
      List.forall_mem_cons.mpr ⟨oneLine_text first tidy.1, oneLine_texts rest tidy.2⟩
termination_by structural tys => tys

end

variable {ty left right : Ty} {members : List (String × Ty)}

theorem Tidy.text (tidy : ty.Tidy) : OneLine ty.text := oneLine_text ty tidy

theorem oneLine_noCommonKind (tidyLeft : left.Tidy) (tidyRight : right.Tidy) :
    OneLine (left.noCommonKind right) :=
  .append (.between rfl tidyLeft.text rfl) tidyRight.text

theorem MembersTidy.append : ∀ {first second : List (String × Ty)}, MembersTidy first →
    MembersTidy second → MembersTidy (first ++ second)
  | [], _, _, behind => behind
  | _ :: _, _, before, behind => ⟨before.1, MembersTidy.append before.2 behind⟩

theorem MembersTidy.memberAt? {name : String} {index : Nat} (tidy : MembersTidy members)
    (found : memberAt? name members = some (index, ty)) : ty.Tidy := by
  induction members generalizing index with
  | nil => cases found
  | cons first rest ih =>
      rw [Ty.memberAt?] at found
      split at found
      · cases found
        exact tidy.1
      · obtain ⟨⟨inner, member⟩, below, same⟩ := Option.map_eq_some_iff.mp found
        cases same
        exact ih tidy.2 below

end Ty

structure Scope.Tidy (scope : Scope) : Prop where
  symbols : ∀ entry ∈ scope.symbols, entry.2.ty.Tidy
  types : ∀ entry ∈ scope.types, entry.2.Tidy

theorem Scope.Tidy.withSymbol {scope : Scope} (tidy : scope.Tidy) {symbol : Symbol}
    (new : symbol.ty.Tidy) : (scope.withSymbol symbol).Tidy where
  symbols := by
    intro entry listed
    rcases List.mem_cons.mp listed with rfl | old
    · exact new
    · exact tidy.symbols entry old
  types := tidy.types

theorem Scope.Tidy.withType {scope : Scope} (tidy : scope.Tidy) (name : String) {ty : Ty}
    (new : ty.Tidy) : (scope.withType name ty).Tidy where
  symbols := tidy.symbols
  types := by
    intro entry listed
    rcases List.mem_cons.mp listed with rfl | old
    · exact new
    · exact tidy.types entry old

namespace ScopeTree

def Tidy (tree : ScopeTree) : Prop := ∀ id, (tree.scopeAt id).Tidy

variable {tree : ScopeTree} {scope : ScopeId} {name : String}

theorem Tidy.addScope (tidy : tree.Tidy) (parent : ScopeId) (frame : Nat) :
    (tree.addScope parent frame).2.Tidy := by
  intro id
  simp only [ScopeTree.addScope, scopeAt, Array.getElem?_push]
  split
  · exact ⟨List.forall_mem_nil _, List.forall_mem_nil _⟩
  · exact tidy id

theorem Tidy.child (tidy : tree.Tidy) (parent : ScopeId) : (tree.child parent).2.Tidy :=
  tidy.addScope parent _

theorem Tidy.withLayouts (tidy : tree.Tidy) (layouts : Array Layout) :
    Tidy { tree with layouts } := tidy

theorem Tidy.functionScope (tidy : tree.Tidy) (parent : ScopeId) :
    (tree.functionScope parent).2.Tidy :=
  (tidy.withLayouts _).addScope parent _

theorem Tidy.changed (tidy : tree.Tidy) (scope : ScopeId) {change : Scope → Scope}
    (keeps : ∀ scope : Scope, scope.Tidy → (change scope).Tidy) (layouts : Array Layout) :
    (tree.changed scope change layouts).Tidy := by
  intro id
  by_cases inside : scope < tree.scopes.size
  · by_cases same : id = scope
    · rw [same, scopeAt_changed_self inside]
      exact keeps _ (tidy scope)
    · rw [scopeAt_changed_of_ne same]
      exact tidy id
  · rw [scopeAt_changed_outside inside]
    exact tidy id

theorem Tidy.withSymbol (tidy : tree.Tidy) (scope : ScopeId) {symbol : Symbol}
    (new : symbol.ty.Tidy) (layouts : Array Layout) :
    (tree.changed scope (Scope.withSymbol symbol) layouts).Tidy :=
  tidy.changed scope (fun _ old => old.withSymbol new) layouts

theorem Tidy.defineType (tidy : tree.Tidy) (scope : ScopeId) (name : String) {ty : Ty}
    (new : ty.Tidy) : (tree.defineType scope name ty).Tidy :=
  tidy.changed scope (fun _ old => old.withType name new) _

theorem Tidy.insert? (tidy : tree.Tidy) {symbol inserted : Symbol} {after : ScopeTree}
    (new : symbol.ty.Tidy) (defined : tree.insert? scope symbol = some (inserted, after)) :
    after.Tidy := by
  obtain ⟨_, rfl⟩ := insert?_eq_some defined
  exact tidy.withSymbol scope new _

theorem Tidy.resolveLocal? (tidy : tree.Tidy) {symbol : Symbol}
    (found : tree.resolveLocal? scope name = some symbol) : symbol.ty.Tidy :=
  (tidy scope).symbols (name, symbol) (Lowering.mem_of_lookup found)

theorem Tidy.resolve? (tidy : tree.Tidy) {symbol : Symbol}
    (found : tree.resolve? scope name = some symbol) : symbol.ty.Tidy := by
  obtain ⟨id, here⟩ := exists_of_nearest?_eq_some found
  exact (tidy id).symbols (name, symbol) (Lowering.mem_of_lookup here)

theorem Tidy.resolveType? (tidy : tree.Tidy) {ty : Ty}
    (found : tree.resolveType? scope name = some ty) : ty.Tidy := by
  obtain ⟨id, here⟩ := exists_of_nearest?_eq_some found
  exact (tidy id).types (name, ty) (Lowering.mem_of_lookup here)

end ScopeTree

/-! ### What a lowering step comes to -/

namespace Diagnostic

theorem oneLine_duplicate {name : String} (named : OneLine name) (span : Span) :
    OneLine (duplicate name span).message :=
  .between rfl named rfl

theorem oneLine_unknown {name : String} (named : OneLine name) (span : Span) :
    OneLine (unknown name span).message :=
  .between rfl named rfl

theorem oneLine_unknownMember {owner member : String} (owned : OneLine owner)
    (named : OneLine member) (span : Span) : OneLine (unknownMember owner member span).message :=
  .append (.append (.append owned (.literal rfl)) named) (.literal rfl)

end Diagnostic

namespace Lowering

inductive Meets {α : Type} (Fits : α → Prop) : Except Diagnostic α → Prop where
  | ok {value : α} : Fits value → Meets Fits (.ok value)
  | error {fault : Diagnostic} : OneLine fault.message → Meets Fits (.error fault)

namespace Meets

variable {α β : Type} {Fits : α → Prop} {Then : β → Prop} {result : Except Diagnostic α}

theorem bind {next : α → Except Diagnostic β} (first : Meets Fits result)
    (second : ∀ value, Fits value → Meets Then (next value)) : Meets Then (result >>= next) := by
  cases first with
  | ok fits => exact second _ fits
  | error oneLine => exact .error oneLine

theorem map {f : α → β} (meets : Meets Fits result) (fits : ∀ value, Fits value → Then (f value)) :
    Meets Then (f <$> result) := by
  cases meets with
  | ok fit => exact .ok (fits _ fit)
  | error oneLine => exact .error oneLine

theorem mapM {f : α → Except Diagnostic β} {value? : Option α} (fits : ∀ value ∈ value?, Fits value)
    (each : ∀ value, Fits value → Meets Then (f value)) :
    Meets (fun found? => ∀ found ∈ found?, Then found) (value?.mapM f) := by
  cases value? with
  | none => exact .ok nofun
  | some value =>
      refine (each value (fits value rfl)).map fun found fit other same => ?_
      cases same
      exact fit

end Meets
end Lowering
end MiniC
