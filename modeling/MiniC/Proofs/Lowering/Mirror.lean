import MiniC.Proofs.Lowering.Growth
import MiniC.Proofs.Syntax.Names

/-!
Scopes that mirror each other.

Two scopes, of the same tree or of two, mirror each other when every name means
the same in both, up to a renaming of variables, and both give out the same slots.
Naming a type, declaring a variable and working in a new scope inside keep it so,
if it is done on both sides.
-/

namespace MiniC

/-- A change of the names of variables. The names that may occur stay apart, and none of them loses
its name. -/
structure Renaming where
  map : String → String
  /-- The names that may occur. -/
  Known : String → Prop
  injective : ∀ first second, Known first → Known second → map first = map second → first = second
  named : ∀ name, Known name → name ≠ "" → map name ≠ ""

namespace Renaming

def same : Renaming where
  map := id
  Known := fun _ => True
  injective := fun _ _ _ _ equal => equal
  named := fun _ _ named => named

/-- A name of a variable may be any known one, a name of a function must stay. So must the name of
the variable that `sync_r` reads. -/
def Admits (names : Renaming) : Mention → Prop
  | .var name => names.Known name
  | .function name => names.Known name ∧ names.map name = name
  | .call name =>
      names.Known name ∧ names.map name = name ∧
        (name = "sync_r" → names.Known "r" ∧ names.map "r" = "r")

theorem same_admits (mention : Mention) : same.Admits mention := by
  cases mention with
  | var name => trivial
  | function name => exact ⟨trivial, rfl⟩
  | call name => exact ⟨trivial, rfl, fun _ => ⟨trivial, rfl⟩⟩

end Renaming

def Symbol.content (symbol : Symbol) : Ty × Storage := (symbol.ty, symbol.storage)

def Symbol.function? (symbol : Symbol) : Option FunctionId :=
  match symbol.storage with
  | .function id => some id
  | _ => none

namespace ScopeTree

def outer? {α : Type} (tree : ScopeTree) (find : Scope → Option α) (id : ScopeId) : Option α :=
  match (tree.scopeAt id).parent? with
  | none => none
  | some parent => if parent < id then tree.nearest? find parent else none

theorem nearest?_eq {α : Type} (tree : ScopeTree) (find : Scope → Option α) (id : ScopeId) :
    tree.nearest? find id = (find (tree.scopeAt id)).or (tree.outer? find id) := by
  rw [nearest?]
  cases find (tree.scopeAt id) <;> rfl

theorem outer?_congr {α : Type} {find : Scope → Option α} {before after : ScopeTree}
    {scope : ScopeId} (parent : (after.scopeAt scope).parent? = (before.scopeAt scope).parent?)
    (earlier : ∀ id, id < scope → after.scopeAt id = before.scopeAt id) :
    after.outer? find scope = before.outer? find scope := by
  unfold outer?
  rw [parent]
  cases (before.scopeAt scope).parent? with
  | none => rfl
  | some parent =>
      by_cases below : parent < scope
      · simp only [if_pos below]
        apply nearest?_congr
        · intro other bound
          rw [earlier other (Nat.lt_of_le_of_lt bound below)]
        · intro other bound
          rw [earlier other (Nat.lt_of_le_of_lt bound below)]
      · simp only [if_neg below]

def functionIn? (tree : ScopeTree) (scope : ScopeId) (name : String) : Option FunctionId :=
  (tree.resolveLocal? scope name).bind Symbol.function?

/-- Only the scope itself and new scopes differ, and no function is declared in it. -/
structure Kept (scope : ScopeId) (before after : ScopeTree) : Prop where
  size_le : before.scopes.size ≤ after.scopes.size
  functions_eq : ∀ name, after.functionIn? scope name = before.functionIn? scope name
  others : ∀ id, id < before.scopes.size → id ≠ scope → after.scopeAt id = before.scopeAt id

namespace Kept

variable {scope : ScopeId} {tree : ScopeTree}

theorem refl (scope : ScopeId) (tree : ScopeTree) : Kept scope tree tree :=
  ⟨Nat.le_refl _, fun _ => rfl, fun _ _ _ => rfl⟩

theorem trans {first second third : ScopeTree} (lower : Kept scope first second)
    (upper : Kept scope second third) : Kept scope first third where
  size_le := Nat.le_trans lower.size_le upper.size_le
  functions_eq := fun name => (upper.functions_eq name).trans (lower.functions_eq name)
  others := by
    intro id inside other
    have insideSecond := Nat.lt_of_lt_of_le inside lower.size_le
    rw [upper.others id insideSecond other, lower.others id inside other]

theorem of_changed {change : Scope → Scope} {layouts : Array Layout}
    (functions : ∀ name, (tree.changed scope change layouts).functionIn? scope name =
      tree.functionIn? scope name) :
    Kept scope tree (tree.changed scope change layouts) where
  size_le := Nat.le_of_eq Array.size_modify.symm
  functions_eq := functions
  others := fun _ _ other => scopeAt_changed_of_ne other

theorem of_type (scope : ScopeId) (tree : ScopeTree) (name : String) (ty : Ty) :
    Kept scope tree (tree.defineType scope name ty) := by
  rw [defineType_eq]
  apply of_changed
  intro other
  unfold functionIn? resolveLocal?
  rw [scopeAt_changed_view Scope.symbols (Scope.withType name ty) fun _ => rfl]

end Kept

theorem nearest?_changed {α : Type} {find : Scope → Option α} {tree : ScopeTree}
    {scope : ScopeId}
    {change : Scope → Scope} {layouts : Array Layout} (inside : scope < tree.scopes.size)
    (parent : ∀ scope, (change scope).parent? = scope.parent?) :
    (tree.changed scope change layouts).nearest? find scope =
      (find (change (tree.scopeAt scope))).or (tree.outer? find scope) := by
  have outside : (tree.changed scope change layouts).outer? find scope = tree.outer? find scope := by
    apply outer?_congr
    · exact scopeAt_changed_view Scope.parent? change parent
    · intro id earlier
      exact scopeAt_changed_of_ne (Nat.ne_of_lt earlier)
  rw [nearest?_eq, scopeAt_changed_self inside, outside]

end ScopeTree

namespace Lowering

open ScopeTree

/-- Two faults, or two values that are related. -/
inductive Alike {α β : Type} (Related : α → β → Prop) :
    Except Diagnostic α → Except Diagnostic β → Prop where
  | error (first second : Diagnostic) : Alike Related (.error first) (.error second)
  | ok {first : α} {second : β} : Related first second → Alike Related (.ok first) (.ok second)

namespace Alike

variable {α β γ δ : Type} {Related : α → β → Prop} {Other : γ → δ → Prop}

theorem refl (result : Except Diagnostic α) : Alike Eq result result := by
  cases result with
  | error fault => exact .error fault fault
  | ok value => exact .ok rfl

theorem bind {left : Except Diagnostic α} {right : Except Diagnostic β}
    {next : α → Except Diagnostic γ} {later : β → Except Diagnostic δ}
    (first : Alike Related left right)
    (rest : ∀ value other, Related value other → Alike Other (next value) (later other)) :
    Alike Other (left >>= next) (right >>= later) := by
  cases first with
  | error fault otherFault => exact .error fault otherFault
  | ok related => exact rest _ _ related

/-- What stands behind results that are the same. -/
theorem bindEq {left right : Except Diagnostic α} {next : α → Except Diagnostic γ}
    {later : α → Except Diagnostic δ} (first : Alike Eq left right)
    (rest : ∀ value, Alike Other (next value) (later value)) :
    Alike Other (left >>= next) (right >>= later) := by
  refine first.bind ?_
  rintro value _ rfl
  exact rest value

theorem map {left right : Except Diagnostic α} (function : α → β) (first : Alike Eq left right) :
    Alike Eq (function <$> left) (function <$> right) := by
  cases first with
  | error fault otherFault => exact .error fault otherFault
  | ok same => exact .ok (congrArg function same)

theorem imp {Weaker : α → β → Prop} {left : Except Diagnostic α} {right : Except Diagnostic β}
    (alike : Alike Related left right) (weaken : ∀ value other, Related value other →
      Weaker value other) : Alike Weaker left right := by
  cases alike with
  | error fault otherFault => exact .error fault otherFault
  | ok related => exact .ok (weaken _ _ related)

/-- What is known of a value on the left may be added. -/
theorem withLeft {left : Except Diagnostic α} {right : Except Diagnostic β} {Holds : α → Prop}
    (alike : Alike Related left right) (holds : ∀ value, left = .ok value → Holds value) :
    Alike (fun value other => Related value other ∧ Holds value) left right := by
  cases alike with
  | error fault otherFault => exact .error fault otherFault
  | ok related => exact .ok ⟨related, holds _ rfl⟩

/-- Two results in one order on the left and in the other on the right. -/
theorem swap {ε ζ : Type} {left : Except Diagnostic α} {right : Except Diagnostic β}
    {extra : Except Diagnostic γ} {later : β → Except Diagnostic γ}
    {next : γ → α → Except Diagnostic ε} {last : β → γ → Except Diagnostic ζ}
    {Final : ε → ζ → Prop} (first : Alike Related left right)
    (second : ∀ value other, Related value other → Alike Eq extra (later other))
    (rest : ∀ value other result, Related value other →
      Alike Final (next result value) (last other result)) :
    Alike Final (extra >>= fun result => left >>= next result)
      (right >>= fun other => later other >>= last other) := by
  cases first with
  | error fault otherFault =>
      cases extra with
      | error early => exact .error early otherFault
      | ok result => exact .error fault otherFault
  | ok related =>
      refine (second _ _ related).bindEq fun result => ?_
      exact rest _ _ result related

theorem ok_iff {left right : Except Diagnostic α} (alike : Alike Eq left right) (value : α) :
    right = .ok value ↔ left = .ok value := by
  cases alike with
  | error fault otherFault =>
      constructor
      · intro impossible
        cases impossible
      · intro impossible
        cases impossible
  | ok same => rw [same]

end Alike

/-! ### Scopes that mean the same -/

/-- Every name means the same in both scopes, up to the renaming. -/
structure Sees (names : Renaming) (left : ScopeId) (leftTree : ScopeTree) (right : ScopeId)
    (rightTree : ScopeTree) : Prop where
  leftInside : left < leftTree.scopes.size
  rightInside : right < rightTree.scopes.size
  symbols : ∀ name, names.Known name →
    (rightTree.resolve? right (names.map name)).map Symbol.content =
      (leftTree.resolve? left name).map Symbol.content
  types : ∀ name, rightTree.resolveType? right name = leftTree.resolveType? left name

/-- Besides, the same names are taken, and the same slots. -/
structure Mirrors (names : Renaming) (left : ScopeId) (leftTree : ScopeTree) (right : ScopeId)
    (rightTree : ScopeTree) : Prop extends Sees names left leftTree right rightTree where
  layouts_eq : rightTree.layouts = leftTree.layouts
  frame_eq : (rightTree.scopeAt right).frame = (leftTree.scopeAt left).frame
  locals : ∀ name, names.Known name →
    (rightTree.resolveLocal? right (names.map name)).map Symbol.content =
      (leftTree.resolveLocal? left name).map Symbol.content

/-- Work in two scopes that mirror each other, and do so afterwards. -/
structure Moves (names : Renaming) (left : ScopeId) (leftTree : ScopeTree) (right : ScopeId)
    (rightTree leftAfter rightAfter : ScopeTree) : Prop where
  mirrors : Mirrors names left leftAfter right rightAfter
  leftKept : Kept left leftTree leftAfter
  rightKept : Kept right rightTree rightAfter

variable {names : Renaming} {left right : ScopeId}
  {leftTree rightTree leftAfter rightAfter : ScopeTree}

theorem Moves.refl (mirrors : Mirrors names left leftTree right rightTree) :
    Moves names left leftTree right rightTree leftTree rightTree :=
  ⟨mirrors, .refl left leftTree, .refl right rightTree⟩

theorem Moves.trans {leftMiddle rightMiddle : ScopeTree}
    (first : Moves names left leftTree right rightTree leftMiddle rightMiddle)
    (second : Moves names left leftMiddle right rightMiddle leftAfter rightAfter) :
    Moves names left leftTree right rightTree leftAfter rightAfter :=
  ⟨second.mirrors, first.leftKept.trans second.leftKept, first.rightKept.trans second.rightKept⟩

private theorem resolve?_defineType (tree : ScopeTree) (scope id : ScopeId) (name other : String)
    (ty : Ty) :
    (tree.defineType scope name ty).resolve? id other = tree.resolve? id other := by
  rw [defineType_eq]
  apply nearest?_congr
  · intro between _
    rw [scopeAt_changed_view Scope.symbols (Scope.withType name ty) fun _ => rfl]
  · intro between _
    exact scopeAt_changed_view Scope.parent? (Scope.withType name ty) fun _ => rfl

private theorem resolveType?_defineType {tree : ScopeTree} {scope : ScopeId}
    (inside : scope < tree.scopes.size) (name other : String) (ty : Ty) :
    (tree.defineType scope name ty).resolveType? scope other =
      if other = name then some ty else tree.resolveType? scope other := by
  have searched := @nearest?_changed Ty (fun scope => scope.types.lookup other) tree scope
    (Scope.withType name ty) tree.layouts inside fun _ => rfl
  rw [defineType_eq, resolveType?, searched, Scope.withType, List.lookup_cons]
  by_cases same : other = name
  · rw [if_pos same, beq_iff_eq.mpr same]
    rfl
  · rw [if_neg same, beq_eq_false_iff_ne.mpr same, resolveType?, nearest?_eq]

theorem Sees.defineType (sees : Sees names left leftTree right rightTree) (name : String)
    (ty : Ty) :
    Sees names left (leftTree.defineType left name ty) right
      (rightTree.defineType right name ty) where
  leftInside := Nat.lt_of_lt_of_eq sees.leftInside Array.size_modify.symm
  rightInside := Nat.lt_of_lt_of_eq sees.rightInside Array.size_modify.symm
  symbols := by
    intro other known
    rw [resolve?_defineType, resolve?_defineType]
    exact sees.symbols other known
  types := by
    intro other
    rw [resolveType?_defineType sees.leftInside, resolveType?_defineType sees.rightInside,
      sees.types]

theorem Moves.defineType
    (moves : Moves names left leftTree right rightTree leftAfter rightAfter) (name : String)
    (ty : Ty) :
    Moves names left leftTree right rightTree (leftAfter.defineType left name ty)
      (rightAfter.defineType right name ty) where
  leftKept := moves.leftKept.trans (.of_type left leftAfter name ty)
  rightKept := moves.rightKept.trans (.of_type right rightAfter name ty)
  mirrors :=
    { moves.mirrors.toSees.defineType name ty with
      layouts_eq := moves.mirrors.layouts_eq
      frame_eq := by
        rw [defineType_eq, defineType_eq,
          scopeAt_changed_view Scope.frame (Scope.withType name ty) fun _ => rfl,
          scopeAt_changed_view Scope.frame (Scope.withType name ty) fun _ => rfl]
        exact moves.mirrors.frame_eq
      locals := by
        intro other known
        unfold resolveLocal?
        rw [defineType_eq, defineType_eq,
          scopeAt_changed_view Scope.symbols (Scope.withType name ty) fun _ => rfl,
          scopeAt_changed_view Scope.symbols (Scope.withType name ty) fun _ => rfl]
        exact moves.mirrors.locals other known }

structure NamesTypes (left right : ScopeId) (Related : ScopeTree → ScopeTree → Prop) : Prop where
  types : ∀ {leftTree rightTree}, Related leftTree rightTree → ∀ name,
    rightTree.resolveType? right name = leftTree.resolveType? left name
  define : ∀ {leftTree rightTree}, Related leftTree rightTree → ∀ name ty,
    Related (leftTree.defineType left name ty) (rightTree.defineType right name ty)

theorem Sees.namesTypes : NamesTypes left right (Sees names left · right ·) :=
  ⟨fun sees => sees.types, fun sees => sees.defineType⟩

theorem Moves.namesTypes :
    NamesTypes left right (Moves names left leftTree right rightTree) :=
  ⟨fun moves => moves.mirrors.types, fun moves => moves.defineType⟩

mutual

theorem resolveSpecifier_alike {Related : ScopeTree → ScopeTree → Prop}
    (named : NamesTypes left right Related) (hint : Option String) (span : Span) :
    ∀ (spec : Specifier) {leftTree rightTree : ScopeTree}, Related leftTree rightTree →
      Alike (fun first second => first.1 = second.1 ∧ Related first.2 second.2)
        (resolveSpecifier left hint span spec leftTree)
        (resolveSpecifier right hint span spec rightTree)
  | .int, _, _, related => .ok ⟨rfl, related⟩
  | .unsignedInt, _, _, related => .ok ⟨rfl, related⟩
  | .long, _, _, related => .ok ⟨rfl, related⟩
  | .unsignedLong, _, _, related => .ok ⟨rfl, related⟩
  | .float, _, _, related => .ok ⟨rfl, related⟩
  | .double, _, _, related => .ok ⟨rfl, related⟩
  | .bool, _, _, related => .ok ⟨rfl, related⟩
  | .void, _, _, related => .ok ⟨rfl, related⟩
  | .named name, leftTree, _, related => by
      rw [resolveSpecifier, resolveSpecifier, named.types related]
      cases leftTree.resolveType? left name with
      | none => exact .error _ _
      | some ty => exact .ok ⟨rfl, related⟩
  | .struct tag? specs _, _, _, related => by
      rw [resolveSpecifier, resolveSpecifier]
      refine (resolveMembers_alike named specs [] related).bind ?_
      rintro ⟨members, leftTree⟩ ⟨_, rightTree⟩ ⟨rfl, related⟩
      cases tag? with
      | none => exact .ok ⟨rfl, related⟩
      | some tag => exact .ok ⟨rfl, named.define related tag _⟩
termination_by structural spec => spec

private theorem resolveMembers_alike {Related : ScopeTree → ScopeTree → Prop}
    (named : NamesTypes left right Related) :
    ∀ (specs : List Member) (found : List (String × Ty)) {leftTree rightTree : ScopeTree},
      Related leftTree rightTree →
      Alike (fun first second => first.1 = second.1 ∧ Related first.2 second.2)
        (resolveMembers left specs found leftTree) (resolveMembers right specs found rightTree)
  | [], found, _, _, related => .ok ⟨rfl, related⟩
  | .mk spec name isArray span :: rest, found, _, _, related => by
      rw [resolveMembers, resolveMembers]
      refine (resolveSpecifier_alike named none span spec related).bind ?_
      rintro ⟨ty, leftTree⟩ ⟨_, rightTree⟩ ⟨rfl, related⟩
      simp only
      split
      · exact .error _ _
      · split
        · exact .error _ _
        · exact resolveMembers_alike named rest _ related
termination_by structural specs => specs

end

private theorem resolve?_withSymbol {tree : ScopeTree} {scope : ScopeId} {layouts : Array Layout}
    (inside : scope < tree.scopes.size) (symbol : Symbol) (name : String) :
    (tree.changed scope (Scope.withSymbol symbol) layouts).resolve? scope name =
      if name = symbol.name then some symbol else tree.resolve? scope name := by
  have searched := @nearest?_changed Symbol (fun scope => scope.symbols.lookup name) tree scope
    (Scope.withSymbol symbol) layouts inside fun _ => rfl
  rw [resolve?, searched, Scope.withSymbol, List.lookup_cons]
  by_cases same : name = symbol.name
  · rw [if_pos same, beq_iff_eq.mpr same]
    rfl
  · rw [if_neg same, beq_eq_false_iff_ne.mpr same, resolve?, nearest?_eq]

private theorem resolveLocal?_withSymbol {tree : ScopeTree} {scope : ScopeId}
    {layouts : Array Layout}
    (inside : scope < tree.scopes.size) (symbol : Symbol) (name : String) :
    (tree.changed scope (Scope.withSymbol symbol) layouts).resolveLocal? scope name =
      if name = symbol.name then some symbol else tree.resolveLocal? scope name := by
  rw [resolveLocal?, scopeAt_changed_self inside, Scope.withSymbol, List.lookup_cons]
  by_cases same : name = symbol.name
  · rw [if_pos same, beq_iff_eq.mpr same]
  · rw [if_neg same, beq_eq_false_iff_ne.mpr same]
    rfl

private theorem resolveType?_withSymbol (tree : ScopeTree) (scope id : ScopeId)
    (layouts : Array Layout)
    (symbol : Symbol) (name : String) :
    (tree.changed scope (Scope.withSymbol symbol) layouts).resolveType? id name =
      tree.resolveType? id name := by
  apply nearest?_congr
  · intro other _
    rw [scopeAt_changed_view Scope.types (Scope.withSymbol symbol) fun _ => rfl]
  · intro other _
    exact scopeAt_changed_view Scope.parent? (Scope.withSymbol symbol) fun _ => rfl

/-- A new symbol on both sides, under a name and what becomes of it. -/
theorem Mirrors.withSymbol (mirrors : Mirrors names left leftTree right rightTree)
    {symbol other : Symbol} (known : names.Known symbol.name)
    (renamed : other.name = names.map symbol.name) (same : other.content = symbol.content)
    (layouts : Array Layout) :
    Mirrors names left (leftTree.changed left (Scope.withSymbol symbol) layouts) right
      (rightTree.changed right (Scope.withSymbol other) layouts) := by
  have sameName (name : String) (knownName : names.Known name) :
      names.map name = other.name ↔ name = symbol.name := by
    rw [renamed]
    constructor
    · exact names.injective name symbol.name knownName known
    · exact congrArg names.map
  constructor
  · constructor
    · exact Nat.lt_of_lt_of_eq mirrors.leftInside Array.size_modify.symm
    · exact Nat.lt_of_lt_of_eq mirrors.rightInside Array.size_modify.symm
    · intro name knownName
      rw [resolve?_withSymbol mirrors.leftInside, resolve?_withSymbol mirrors.rightInside]
      by_cases here : name = symbol.name
      · rw [if_pos here, if_pos ((sameName name knownName).mpr here)]
        exact congrArg some same
      · rw [if_neg here, if_neg fun there => here ((sameName name knownName).mp there)]
        exact mirrors.symbols name knownName
    · intro name
      rw [resolveType?_withSymbol, resolveType?_withSymbol]
      exact mirrors.types name
  · rfl
  · rw [scopeAt_changed_view Scope.frame (Scope.withSymbol symbol) fun _ => rfl,
      scopeAt_changed_view Scope.frame (Scope.withSymbol other) fun _ => rfl]
    exact mirrors.frame_eq
  · intro name knownName
    rw [resolveLocal?_withSymbol mirrors.leftInside, resolveLocal?_withSymbol mirrors.rightInside]
    by_cases here : name = symbol.name
    · rw [if_pos here, if_pos ((sameName name knownName).mpr here)]
      exact congrArg some same
    · rw [if_neg here, if_neg fun there => here ((sameName name knownName).mp there)]
      exact mirrors.locals name knownName

theorem functionIn?_withSymbol {tree : ScopeTree} {scope : ScopeId} {layouts : Array Layout}
    (inside : scope < tree.scopes.size) (symbol : Symbol) (name : String) :
    (tree.changed scope (Scope.withSymbol symbol) layouts).functionIn? scope name =
      if name = symbol.name then symbol.function? else tree.functionIn? scope name := by
  unfold functionIn?
  rw [resolveLocal?_withSymbol inside]
  split <;> rfl

private theorem variableSymbol_function? (name : String) (ty : Ty) (slot : Slot) :
    (variableSymbol name ty slot).function? = none := by
  unfold variableSymbol Symbol.function?
  by_cases reference : ty.isReference = true
  · simp only [if_pos reference]
  · simp only [if_neg reference]

/-- A variable of a new name is no function, and takes the name of none. -/
theorem kept_of_variable {tree : ScopeTree} {scope : ScopeId} {layouts : Array Layout}
    (inside : scope < tree.scopes.size) {name : String}
    (new : (tree.resolveLocal? scope name).isSome = false) (ty : Ty) (slot : Slot) :
    Kept scope tree
      (tree.changed scope (Scope.withSymbol (variableSymbol name ty slot)) layouts) := by
  apply Kept.of_changed
  intro other
  rw [functionIn?_withSymbol inside]
  by_cases here : other = (variableSymbol name ty slot).name
  · rw [if_pos here, here, variableSymbol_function?]
    have free : tree.resolveLocal? scope name = none :=
      Option.not_isSome_iff_eq_none.mp (Bool.eq_false_iff.mp new)
    change none = (tree.resolveLocal? scope name).bind Symbol.function?
    rw [free]
    rfl
  · rw [if_neg here]

private theorem Mirrors.isSome_resolveLocal? (mirrors : Mirrors names left leftTree right rightTree)
    {name : String} (known : names.Known name) :
    (rightTree.resolveLocal? right (names.map name)).isSome =
      (leftTree.resolveLocal? left name).isSome := by
  have same := congrArg Option.isSome (mirrors.locals name known)
  rw [Option.isSome_map, Option.isSome_map] at same
  exact same

theorem Mirrors.layout_eq (mirrors : Mirrors names left leftTree right rightTree) :
    rightTree.layout right = leftTree.layout left := by
  rw [ScopeTree.layout, ScopeTree.layout, mirrors.frame_eq, mirrors.layouts_eq]

theorem Mirrors.region_eq (mirrors : Mirrors names left leftTree right rightTree) :
    rightTree.region right = leftTree.region left := by
  unfold region isGlobal
  rw [mirrors.frame_eq]

private theorem defineSlot_eq (tree : ScopeTree) (scope : ScopeId) (name : String) (ty : Ty)
    (span : Span) :
    defineSlot tree scope name ty span =
      if (tree.resolveLocal? scope name).isSome then .error (.duplicate name span)
      else .ok (freeSlot tree scope ty,
        tree.changed scope (Scope.withSymbol (variableSymbol name ty (freeSlot tree scope ty)))
          (tree.layouts.setIfInBounds (tree.scopeAt scope).frame (layoutWith tree scope ty))) := by
  cases taken : (tree.resolveLocal? scope name).isSome with
  | true =>
      have refused : tree.define? scope name ty = none := by
        unfold define? insert?
        simp only [taken, if_true, Option.map_none]
      rw [defineSlot, refused]
      rfl
  | false =>
      unfold defineSlot define? insert?
      simp only [taken, Bool.false_eq_true, if_false, Option.map_some]
      by_cases reference : ty.isReference = true
      · simp only [nextSlot, freeSlot, variableSymbol, layoutWith, if_pos reference]
        rfl
      · simp only [nextSlot, freeSlot, variableSymbol, layoutWith, if_neg reference]
        rfl

theorem defineSlot_alike (mirrors : Mirrors names left leftTree right rightTree) {name : String}
    (known : names.Known name) (ty : Ty) (span : Span) :
    Alike (fun first second => first.1 = second.1 ∧
        Moves names left leftTree right rightTree first.2 second.2)
      (defineSlot leftTree left name ty span)
      (defineSlot rightTree right (names.map name) ty span) := by
  have sameSlot : freeSlot rightTree right ty = freeSlot leftTree left ty := by
    unfold freeSlot
    rw [mirrors.region_eq, mirrors.layout_eq]
  have sameLayout : layoutWith rightTree right ty = layoutWith leftTree left ty := by
    unfold layoutWith
    rw [mirrors.region_eq, mirrors.layout_eq]
  have sameTaken := mirrors.isSome_resolveLocal? known
  rw [defineSlot_eq, defineSlot_eq, sameTaken, sameSlot, sameLayout, mirrors.layouts_eq,
    mirrors.frame_eq]
  cases taken : (leftTree.resolveLocal? left name).isSome with
  | true => exact .error _ _
  | false =>
      rw [taken] at sameTaken
      refine .ok ⟨rfl, ?_, ?_, ?_⟩
      · apply mirrors.withSymbol
        · exact known
        · rfl
        · rfl
      · exact kept_of_variable mirrors.leftInside taken ty _
      · exact kept_of_variable mirrors.rightInside sameTaken ty _

/-! ### New scopes -/

/-- The scopes that were there are as they were. -/
structure Within (before after : ScopeTree) : Prop where
  size_le : before.scopes.size ≤ after.scopes.size
  scopeAt_eq : ∀ id, id < before.scopes.size → after.scopeAt id = before.scopeAt id

namespace Within

variable {before after : ScopeTree}

theorem of_kept {middle : ScopeTree} {new : Scope}
    (grown : middle.scopes = before.scopes.push new)
    (kept : Kept before.scopes.size middle after) : Within before after := by
  have size : middle.scopes.size = before.scopes.size + 1 := by
    rw [grown, Array.size_push]
  constructor
  · have larger := kept.size_le
    omega
  · intro id inside
    have insideMiddle : id < middle.scopes.size := by
      rw [size]
      exact Nat.lt_succ_of_lt inside
    rw [kept.others id insideMiddle (Nat.ne_of_lt inside), scopeAt, scopeAt, grown,
      Array.getElem?_push_lt inside, Array.getElem?_eq_getElem inside]

theorem kept (within : Within before after) {scope : ScopeId}
    (inside : scope < before.scopes.size) : Kept scope before after where
  size_le := within.size_le
  functions_eq := by
    intro name
    unfold functionIn? resolveLocal?
    rw [within.scopeAt_eq scope inside]
  others := fun id bound _ => within.scopeAt_eq id bound

theorem trans {first second third : ScopeTree} (lower : Within first second)
    (upper : Within second third) : Within first third where
  size_le := Nat.le_trans lower.size_le upper.size_le
  scopeAt_eq := by
    intro id inside
    rw [upper.scopeAt_eq id (Nat.lt_of_lt_of_le inside lower.size_le), lower.scopeAt_eq id inside]

theorem child (tree : ScopeTree) (scope : ScopeId) : Within tree (tree.child scope).2 where
  size_le := Nat.le_of_lt (child_inside tree scope)
  scopeAt_eq := fun _ inside => scopeAt_addScope_of_lt inside

theorem nearest?_eq {α : Type} {find : Scope → Option α} (within : Within before after)
    {id : ScopeId} (inside : id < before.scopes.size) :
    after.nearest? find id = before.nearest? find id := by
  apply nearest?_congr
  · intro other bound
    rw [within.scopeAt_eq other (Nat.lt_of_le_of_lt bound inside)]
  · intro other bound
    rw [within.scopeAt_eq other (Nat.lt_of_le_of_lt bound inside)]

end Within

theorem Mirrors.refl {scope : ScopeId} {tree : ScopeTree} (inside : scope < tree.scopes.size) :
    Mirrors .same scope tree scope tree where
  leftInside := inside
  rightInside := inside
  symbols := fun _ _ => rfl
  types := fun _ => rfl
  layouts_eq := rfl
  frame_eq := rfl
  locals := fun _ _ => rfl

/-- New scopes on both sides, and the same slots taken in them. -/
theorem Mirrors.moves (mirrors : Mirrors names left leftTree right rightTree)
    (leftWithin : Within leftTree leftAfter) (rightWithin : Within rightTree rightAfter)
    (layouts : rightAfter.layouts = leftAfter.layouts) :
    Moves names left leftTree right rightTree leftAfter rightAfter where
  leftKept := leftWithin.kept mirrors.leftInside
  rightKept := rightWithin.kept mirrors.rightInside
  mirrors := by
    constructor
    · constructor
      · exact Nat.lt_of_lt_of_le mirrors.leftInside leftWithin.size_le
      · exact Nat.lt_of_lt_of_le mirrors.rightInside rightWithin.size_le
      · intro name known
        rw [resolve?, resolve?, leftWithin.nearest?_eq mirrors.leftInside,
          rightWithin.nearest?_eq mirrors.rightInside]
        exact mirrors.symbols name known
      · intro name
        rw [resolveType?, resolveType?, leftWithin.nearest?_eq mirrors.leftInside,
          rightWithin.nearest?_eq mirrors.rightInside]
        exact mirrors.types name
    · exact layouts
    · rw [leftWithin.scopeAt_eq left mirrors.leftInside,
        rightWithin.scopeAt_eq right mirrors.rightInside]
      exact mirrors.frame_eq
    · intro name known
      rw [resolveLocal?, resolveLocal?, leftWithin.scopeAt_eq left mirrors.leftInside,
        rightWithin.scopeAt_eq right mirrors.rightInside]
      exact mirrors.locals name known

theorem Sees.withLayouts (sees : Sees names left leftTree right rightTree)
    (leftLayouts rightLayouts : Array Layout) :
    Sees names left { leftTree with layouts := leftLayouts } right
      { rightTree with layouts := rightLayouts } := by
  have same {α : Type} (find : Scope → Option α) (tree : ScopeTree) (layouts : Array Layout)
      (id : ScopeId) : nearest? { tree with layouts } find id = tree.nearest? find id :=
    nearest?_congr id (fun _ _ => rfl) (fun _ _ => rfl)
  constructor
  · exact sees.leftInside
  · exact sees.rightInside
  · intro name known
    rw [resolve?, resolve?, same _ rightTree, same _ leftTree]
    exact sees.symbols name known
  · intro name
    rw [resolveType?, resolveType?, same _ rightTree, same _ leftTree]
    exact sees.types name

/-- A new scope inside scopes where every name means the same. -/
theorem Sees.addScope (sees : Sees names left leftTree right rightTree)
    (layouts : rightTree.layouts = leftTree.layouts) (frame : Nat) :
    Mirrors names (leftTree.addScope left frame).1 (leftTree.addScope left frame).2
      (rightTree.addScope right frame).1 (rightTree.addScope right frame).2 := by
  have inside (tree : ScopeTree) (scope : ScopeId) :
      tree.scopes.size < (tree.addScope scope frame).2.scopes.size := by
    simp only [ScopeTree.addScope, Array.size_push]
    exact Nat.lt_succ_self _
  change Mirrors names leftTree.scopes.size _ rightTree.scopes.size _
  constructor
  · constructor
    · exact inside leftTree left
    · exact inside rightTree right
    · intro name known
      rw [resolve?, resolve?, nearest?_addScope sees.leftInside rfl,
        nearest?_addScope sees.rightInside rfl]
      exact sees.symbols name known
    · intro name
      rw [resolveType?, resolveType?, nearest?_addScope sees.leftInside rfl,
        nearest?_addScope sees.rightInside rfl]
      exact sees.types name
  · exact layouts
  · rw [scopeAt_addScope_self, scopeAt_addScope_self]
  · intro name _
    rw [resolveLocal?, resolveLocal?, scopeAt_addScope_self, scopeAt_addScope_self]
    rfl

/-- A new block in scopes where every name means the same. -/
theorem Sees.child (sees : Sees names left leftTree right rightTree)
    (layouts : rightTree.layouts = leftTree.layouts)
    (frame : (rightTree.scopeAt right).frame = (leftTree.scopeAt left).frame) :
    Mirrors names (leftTree.child left).1 (leftTree.child left).2 (rightTree.child right).1
      (rightTree.child right).2 := by
  unfold ScopeTree.child
  rw [frame]
  exact sees.addScope layouts _

theorem Mirrors.child (mirrors : Mirrors names left leftTree right rightTree) :
    Mirrors names (leftTree.child left).1 (leftTree.child left).2 (rightTree.child right).1
      (rightTree.child right).2 :=
  mirrors.toSees.child mirrors.layouts_eq mirrors.frame_eq

/-- A block alone sees what the scope around it does. -/
theorem Sees.inBlock (sees : Sees names left leftTree right rightTree) :
    Sees names left leftTree (rightTree.child right).1 (rightTree.child right).2 where
  leftInside := sees.leftInside
  rightInside := child_inside rightTree right
  symbols := by
    intro name known
    rw [resolve?_child sees.rightInside]
    exact sees.symbols name known
  types := by
    intro name
    have same : (rightTree.child right).2.resolveType? (rightTree.child right).1 name =
        rightTree.resolveType? right name := nearest?_addScope sees.rightInside rfl
    rw [same]
    exact sees.types name

theorem Sees.later (sees : Sees names left leftTree right rightTree)
    (within : Within rightTree rightAfter) : Sees names left leftTree right rightAfter where
  leftInside := sees.leftInside
  rightInside := Nat.lt_of_lt_of_le sees.rightInside within.size_le
  symbols := by
    intro name known
    rw [resolve?, within.nearest?_eq sees.rightInside]
    exact sees.symbols name known
  types := by
    intro name
    rw [resolveType?, within.nearest?_eq sees.rightInside]
    exact sees.types name

theorem Mirrors.functionScope (mirrors : Mirrors names left leftTree right rightTree) :
    Mirrors names (leftTree.functionScope left).1 (leftTree.functionScope left).2
      (rightTree.functionScope right).1 (rightTree.functionScope right).2 := by
  unfold ScopeTree.functionScope
  rw [mirrors.layouts_eq]
  exact (mirrors.toSees.withLayouts _ _).addScope rfl _

/-- Work in a block is work in the scope around it. -/
theorem Moves.of_child (mirrors : Mirrors names left leftTree right rightTree)
    (moves : Moves names (leftTree.child left).1 (leftTree.child left).2 (rightTree.child right).1
      (rightTree.child right).2 leftAfter rightAfter) :
    Moves names left leftTree right rightTree leftAfter rightAfter :=
  mirrors.moves (.of_kept rfl moves.leftKept) (.of_kept rfl moves.rightKept)
    moves.mirrors.layouts_eq

theorem Moves.of_functionScope (mirrors : Mirrors names left leftTree right rightTree)
    (moves : Moves names (leftTree.functionScope left).1 (leftTree.functionScope left).2
      (rightTree.functionScope right).1 (rightTree.functionScope right).2 leftAfter rightAfter) :
    Moves names left leftTree right rightTree leftAfter rightAfter :=
  mirrors.moves (.of_kept rfl moves.leftKept) (.of_kept rfl moves.rightKept)
    moves.mirrors.layouts_eq

end Lowering
end MiniC
