import ChainQuery.Expr.Json
import ChainQuery.Proofs.Expr.Children
import ChainQuery.Proofs.Ty.ReadBack
/-!
# Reading back the JSON forms of literals and expressions

What is written as a JSON value is read back from it: literals whose objects name each member once
(`Literal.ofJson_toJson`) and expressions over such literals (`Expr.decode_toJson`), in both manners of
reading.  A reader of expressions is given a number of levels; all that is asked of it is that the
written expression does not nest deeper.

What stands in a text is read back only if its numbers are.  Those of a written expression are integers of
64 bits and the doubles in its literals (`Expr.forall_numbers_toJson`).
-/

namespace ChainQuery

/-! ## 1. Literals -/

namespace Literal

mutual
/-- Whether every object in a literal names each of its members once. -/
def namesDistinct : Literal → Bool
  | .list items => itemsDistinct items
  | .object members => decide (members.map Prod.fst).Nodup && membersDistinct members
  | _ => true

/-- `namesDistinct` for the items of a list. -/
def itemsDistinct : List Literal → Bool
  | [] => true
  | l :: rest => l.namesDistinct && itemsDistinct rest

/-- `namesDistinct` for the members of an object. -/
def membersDistinct : List (String × Literal) → Bool
  | [] => true
  | (_, l) :: rest => l.namesDistinct && membersDistinct rest
end

mutual
/-- The doubles in a literal. -/
def floats : Literal → List Float
  | .float x => [x]
  | .list items => itemFloats items
  | .object members => memberFloats members
  | _ => []

/-- The doubles in the items of a list. -/
def itemFloats : List Literal → List Float
  | [] => []
  | l :: rest => l.floats ++ itemFloats rest

/-- The doubles in the members of an object. -/
def memberFloats : List (String × Literal) → List Float
  | [] => []
  | (_, l) :: rest => l.floats ++ memberFloats rest
end

/-- An integer of 64 bits is read as one. -/
theorem ofNumber_int (i : Int64) : ofNumber (.int i.toInt) = .int i := by
  rw [ofNumber, if_pos (Int64.toInt_le i), Int64.ofInt_toInt]

mutual
/-- **A literal is read back**, with the members of its objects in their order, if they are named
once. -/
theorem ofJson_toJson : ∀ l : Literal, l.namesDistinct = true → ofJson l.toJson = l
  | .null, _ => rfl
  | .bool _, _ => rfl
  | .int i, _ => ofNumber_int i
  | .float _, _ => rfl
  | .string _, _ => rfl
  | .list items, h => by
    rw [toJson, ofJson, ofItems_itemsToJson items h]
  | .object members, h => by
    obtain ⟨hnames, hmembers⟩ := (Bool.and_eq_true _ _).mp h
    rw [toJson, ofJson, ofMembers_membersToJson members hmembers,
      Assoc.ofEntries_eq_self (of_decide_eq_true hnames)]

theorem ofItems_itemsToJson : ∀ items : List Literal, itemsDistinct items = true →
    ofItems (itemsToJson items) = items
  | [], _ => rfl
  | l :: rest, h => by
    obtain ⟨hl, hrest⟩ := (Bool.and_eq_true _ _).mp h
    rw [itemsToJson, ofItems, ofJson_toJson l hl, ofItems_itemsToJson rest hrest]

theorem ofMembers_membersToJson : ∀ members : List (String × Literal),
    membersDistinct members = true → ofMembers (membersToJson members) = members
  | [], _ => rfl
  | (name, l) :: rest, h => by
    obtain ⟨hl, hrest⟩ := (Bool.and_eq_true _ _).mp h
    rw [membersToJson, ofMembers, ofJson_toJson l hl, ofMembers_membersToJson rest hrest]
end

/-! The numbers in the JSON form of a literal are integers of 64 bits and its doubles. -/

mutual
theorem forall_numbers_toJson {P : Json.Number → Prop} (hint : ∀ i : Int64, P (.int i.toInt)) :
    ∀ l : Literal, (∀ x ∈ l.floats, P (.float x)) → ∀ n ∈ l.toJson.numbers, P n
  | .null, _ => nofun
  | .bool _, _ => nofun
  | .int i, _ => List.forall_mem_singleton.mpr (hint i)
  | .float x, h => List.forall_mem_singleton.mpr (h x (List.mem_singleton_self x))
  | .string _, _ => nofun
  | .list items, h => forall_numbers_itemsToJson hint items h
  | .object members, h => forall_numbers_membersToJson hint members h

theorem forall_numbers_itemsToJson {P : Json.Number → Prop} (hint : ∀ i : Int64, P (.int i.toInt)) :
    ∀ items : List Literal, (∀ x ∈ itemFloats items, P (.float x)) →
      ∀ n ∈ Json.itemNumbers (itemsToJson items), P n
  | [], _ => nofun
  | l :: rest, h => by
    obtain ⟨hl, hrest⟩ := List.forall_mem_append.mp h
    exact List.forall_mem_append.mpr
      ⟨forall_numbers_toJson hint l hl, forall_numbers_itemsToJson hint rest hrest⟩

theorem forall_numbers_membersToJson {P : Json.Number → Prop}
    (hint : ∀ i : Int64, P (.int i.toInt)) :
    ∀ members : List (String × Literal), (∀ x ∈ memberFloats members, P (.float x)) →
      ∀ n ∈ Json.memberNumbers (membersToJson members), P n
  | [], _ => nofun
  | (_, l) :: rest, h => by
    obtain ⟨hl, hrest⟩ := List.forall_mem_append.mp h
    exact List.forall_mem_append.mpr
      ⟨forall_numbers_toJson hint l hl, forall_numbers_membersToJson hint rest hrest⟩
end

end Literal

/-! ## 2. Operators and methods -/

@[simp] theorem BinaryOp.numbers_toJson (op : BinaryOp) : op.toJson.numbers = [] := rfl

@[simp] theorem UnaryOp.numbers_toJson (op : UnaryOp) : op.toJson.numbers = [] := by
  cases op with
  | not => rfl
  | negate => rfl
  | convert target => simp [toJson, Json.numbers, Json.memberNumbers]

@[simp] theorem Method.numbers_toJson (m : Method) : m.toJson.numbers = [] := by
  cases m <;> rfl

@[simp] theorem BinaryOp.ofJson?_toJson (op : BinaryOp) : ofJson? op.toJson = some op := by
  simp [ofJson?, toJson]

/-- A conversion is told from the operators that are written as names. -/
theorem UnaryOp.ofJson?_toJson {op : UnaryOp} (h : op.toJson.depth ≤ Json.maxDepth) :
    ofJson? op.toJson = some op := by
  cases op with
  | not => rfl
  | negate => rfl
  | convert target =>
    have htarget : target.toJson.depth ≤ Json.maxDepth := by
      refine Nat.le_trans (Nat.le_succ _) ?_
      simpa [toJson, Json.depth, Json.depthMembers] using h
    have hunit : Json.unit? .lenient (toJson (.convert target)) = none := by cases target <;> rfl
    rw [ofJson?, hunit]
    simp [toJson, Json.variant?, Ty.decode_toJson .lenient target htarget]

@[simp] theorem Method.ofJson?_toJson (m : Method) : ofJson? m.toJson = some m := by
  cases m with
  | string m => simp [toJson, ofJson?, Json.variant?]
  | aggregate a => simp [toJson, ofJson?, Json.variant?]
  | other declaringType name => rfl

/-! ## 3. Parameters -/

theorem Parameter.decode_toJson (manner : Json.Manner) {p : Parameter} {levels : Nat}
    (h : p.type.toJson.depth ≤ levels) : Parameter.decode manner levels p.toJson = some p := by
  have hread : Parameter.decode manner levels p.toJson
      = (do return { name := p.name, type := ← Ty.decode manner levels p.type.toJson }) := rfl
  rw [hread, Ty.decode_toJson manner p.type h]
  rfl

theorem Parameter.mapM_decode_toJson (manner : Json.Manner) {params : List Parameter} {levels : Nat}
    (h : Json.depthItems (params.map toJson) ≤ levels) :
    (params.map toJson).mapM (decode manner levels) = some params := by
  rw [Json.depthItems_le_iff, List.forall_mem_map] at h
  refine Json.mapM_map_eq_some fun p hp => decode_toJson manner ?_
  have hdepth := h p hp
  simp only [toJson, Json.depth, Json.depthMembers] at hdepth
  omega

/-! ## 4. Expressions -/

namespace Expr

/-- The literal of a constant. -/
def literal? : Expr → Option Literal
  | .constant value _ => some value
  | _ => none

/-- The literals in an expression, from left to right. -/
def literals (e : Expr) : List Literal :=
  e.fold fun node below => node.literal?.toList ++ below.flatten

theorem literals_eq (e : Expr) :
    e.literals = e.literal?.toList ++ e.children.flatMap literals := by
  unfold literals
  rw [fold_eq]
  rfl

theorem listToJson_eq_map (es : List Expr) : listToJson es = es.map toJson := by
  induction es with
  | nil => rfl
  | cons e rest ih => rw [listToJson, ih, List.map_cons]

theorem pairsToJson_eq_map (members : List (String × Expr)) :
    pairsToJson members = members.map fun m => .array [.string m.1, m.2.toJson] := by
  induction members with
  | nil => rfl
  | cons m rest ih => rw [pairsToJson, ih, List.map_cons]

theorem forall_depth_of_listToJson {es : List Expr} {n : Nat}
    (h : Json.depthItems (listToJson es) ≤ n) : ∀ e ∈ es, e.toJson.depth ≤ n := by
  rw [listToJson_eq_map, Json.depthItems_le_iff, List.forall_mem_map] at h
  exact h

theorem forall_depth_of_pairsToJson {members : List (String × Expr)} {n : Nat}
    (h : Json.depthItems (pairsToJson members) ≤ n) : ∀ m ∈ members, m.2.toJson.depth ≤ n := by
  rw [pairsToJson_eq_map, Json.depthItems_le_iff, List.forall_mem_map] at h
  intro m hm
  have hpair := h m hm
  simp only [Json.depth, Json.depthItems] at hpair
  omega

theorem toJson_eq_object (e : Expr) : ∃ members, e.toJson = .object members := by
  cases e with
  | call m receiver args t => cases receiver <;> exact ⟨_, rfl⟩
  | _ => exact ⟨_, rfl⟩

/-! Reading a written node is reading its parts.  There is one equation for each kind of node, and they
hold by computation. -/

section Nodes

variable (manner : Json.Manner) (levels : Nat) (t : Ty)

theorem decode_binary (op : BinaryOp) (left right : Expr) :
    decode (levels + 1) manner (binary op left right).toJson = do
      return .binary (← BinaryOp.ofJson? op.toJson) (← decode levels .lenient left.toJson)
          (← decode levels .lenient right.toJson) := rfl

theorem decode_unary (op : UnaryOp) (operand : Expr) :
    decode (levels + 1) manner (unary op operand).toJson = do
      return .unary (← UnaryOp.ofJson? op.toJson)
          (← decode levels .lenient operand.toJson) := rfl

theorem decode_member (object : Expr) (name : String) :
    decode (levels + 1) manner (member object name t).toJson = do
      return .member (← decode levels .lenient object.toJson) name
          (← Ty.decode .lenient Json.maxDepth t.toJson) := rfl

theorem decode_constant (value : Literal) :
    decode (levels + 1) manner (constant value t).toJson = do
      return .constant (Literal.ofJson value.toJson)
          (← Ty.decode .lenient Json.maxDepth t.toJson) := rfl

theorem decode_parameter (name : String) :
    decode (levels + 1) manner (parameter name t).toJson = do
      return .parameter name (← Ty.decode .lenient Json.maxDepth t.toJson) := rfl

theorem decode_new (members : List (String × Expr)) :
    decode (levels + 1) manner (new t members).toJson = do
      return .new (← Ty.decode .lenient Json.maxDepth t.toJson)
          (← pairsOf? (decode levels .lenient) (.array (pairsToJson members))) := rfl

theorem decode_call_none (m : Method) (args : List Expr) :
    decode (levels + 1) manner (call m none args t).toJson = do
      return .call (← Method.ofJson? m.toJson) none
          (← listOf? (decode levels .lenient) (.array (listToJson args)))
          (← Ty.decode .lenient Json.maxDepth t.toJson) := rfl

theorem decode_call_some (m : Method) (receiver : Expr) (args : List Expr) :
    decode (levels + 1) manner (call m (some receiver) args t).toJson = do
      return .call (← Method.ofJson? m.toJson)
          (← orNull? (decode levels .lenient) receiver.toJson)
          (← listOf? (decode levels .lenient) (.array (listToJson args)))
          (← Ty.decode .lenient Json.maxDepth t.toJson) := rfl

theorem decode_conditional (test ifTrue ifFalse : Expr) :
    decode (levels + 1) manner (conditional test ifTrue ifFalse).toJson = do
      return .conditional (← decode levels .lenient test.toJson)
          (← decode levels .lenient ifTrue.toJson)
          (← decode levels .lenient ifFalse.toJson) := rfl

theorem decode_lambda (params : List Parameter) (body : Expr) :
    decode (levels + 1) manner (lambda params body).toJson = do
      return .lambda
          (← (params.map Parameter.toJson).mapM (Parameter.decode .lenient Json.maxDepth))
          (← decode levels .lenient body.toJson) := rfl

theorem decode_memberInit (bindings : List (String × Expr)) :
    decode (levels + 1) manner (memberInit t bindings).toJson = do
      return .memberInit (← Ty.decode .lenient Json.maxDepth t.toJson)
          (← pairsOf? (decode levels .lenient) (.array (pairsToJson bindings))) := rfl

theorem decode_listInit (elements : List Expr) :
    decode (levels + 1) manner (listInit t elements).toJson = do
      return .listInit (← Ty.decode .lenient Json.maxDepth t.toJson)
          (← listOf? (decode levels .lenient) (.array (listToJson elements))) := rfl

theorem decode_newArray (elements : List Expr) :
    decode (levels + 1) manner (newArray t elements).toJson = do
      return .newArray (← Ty.decode .lenient Json.maxDepth t.toJson)
          (← listOf? (decode levels .lenient) (.array (listToJson elements))) := rfl

theorem decode_invoke (target : Expr) (args : List Expr) :
    decode (levels + 1) manner (invoke target args t).toJson = do
      return .invoke (← decode levels .lenient target.toJson)
          (← listOf? (decode levels .lenient) (.array (listToJson args)))
          (← Ty.decode .lenient Json.maxDepth t.toJson) := rfl

theorem decode_typeIs (operand : Expr) :
    decode (levels + 1) manner (typeIs operand t).toJson = do
      return .typeIs (← decode levels .lenient operand.toJson)
          (← Ty.decode .lenient Json.maxDepth t.toJson) := rfl

end Nodes

section Lists

variable {read : Json → Option Expr}

theorem listOf?_listToJson {es : List Expr} (h : ∀ e ∈ es, read e.toJson = some e) :
    listOf? read (.array (listToJson es)) = some es := by
  rw [listToJson_eq_map]
  exact Json.mapM_map_eq_some h

theorem pairsOf?_pairsToJson {members : List (String × Expr)}
    (h : ∀ m ∈ members, read m.2.toJson = some m.2) :
    pairsOf? read (.array (pairsToJson members)) = some members := by
  rw [pairsToJson_eq_map]
  have hpair : ∀ m ∈ members, pairOf? read (.array [.string m.1, m.2.toJson]) = some m := by
    intro m hm
    have hread : pairOf? read (.array [.string m.1, m.2.toJson])
        = (do return (m.1, ← read m.2.toJson)) := rfl
    rw [hread, h m hm]
    rfl
  exact Json.mapM_map_eq_some hpair

/-- A receiver is told from a missing one. -/
theorem orNull?_toJson {e : Expr} (h : read e.toJson = some e) :
    orNull? read e.toJson = some (some e) := by
  obtain ⟨members, hmembers⟩ := e.toJson_eq_object
  have hread : orNull? read e.toJson = (read e.toJson).map some := by
    rw [hmembers]
    rfl
  rw [hread, h]
  rfl

end Lists

/-- **An expression is read back**, in either manner and with as many levels as it nests. -/
theorem decode_toJson (e : Expr) : (∀ v ∈ e.literals, v.namesDistinct = true) →
    ∀ {levels : Nat}, e.toJson.depth ≤ levels → levels ≤ Json.maxDepth →
      ∀ manner : Json.Manner, decode levels manner e.toJson = some e := by
  induction e using children_induction with
  | node e ih =>
    intro hnames levels hdepth hmax manner
    have hlevels : 1 ≤ levels := by
      obtain ⟨members, hmembers⟩ := e.toJson_eq_object
      rw [hmembers, Json.depth] at hdepth
      omega
    obtain ⟨levels, rfl⟩ := Nat.exists_eq_add_of_le' hlevels
    -- a child is read within the levels that are left
    have hchild : ∀ c ∈ e.children, c.toJson.depth ≤ levels →
        decode levels .lenient c.toJson = some c := by
      intro c hc hle
      refine ih c hc (fun v hv => hnames v ?_) hle (by omega) .lenient
      rw [literals_eq]
      exact List.mem_append_right _ (List.mem_flatMap.mpr ⟨c, hc, hv⟩)
    have hlist : ∀ es : List Expr, (∀ c ∈ es, c ∈ e.children) →
        Json.depthItems (listToJson es) ≤ levels →
          listOf? (decode levels .lenient) (.array (listToJson es)) = some es := by
      intro es hes hle
      have hdepths := forall_depth_of_listToJson hle
      exact listOf?_listToJson fun c hc => hchild c (hes c hc) (hdepths c hc)
    have hpairs : ∀ members : List (String × Expr), members.map Prod.snd = e.children →
        Json.depthItems (pairsToJson members) ≤ levels →
          pairsOf? (decode levels .lenient) (.array (pairsToJson members)) = some members := by
      intro members hmembers hle
      have hdepths := forall_depth_of_pairsToJson hle
      refine pairsOf?_pairsToJson fun m hm => hchild m.2 ?_ (hdepths m hm)
      rw [← hmembers]
      exact List.mem_map_of_mem hm
    have htype : ∀ t : Ty, t.toJson.depth ≤ levels →
        Ty.decode .lenient Json.maxDepth t.toJson = some t :=
      fun t ht => Ty.decode_toJson .lenient t (by omega)
    cases e with
    | binary op left right =>
      simp only [toJson, Json.depth, Json.depthMembers] at hdepth
      rw [decode_binary, BinaryOp.ofJson?_toJson, hchild left (by simp [children]) (by omega),
        hchild right (by simp [children]) (by omega)]
      rfl
    | unary op operand =>
      simp only [toJson, Json.depth, Json.depthMembers] at hdepth
      rw [decode_unary, UnaryOp.ofJson?_toJson (by omega),
        hchild operand (by simp [children]) (by omega)]
      rfl
    | member object name t =>
      simp only [toJson, Json.depth, Json.depthMembers] at hdepth
      rw [decode_member, hchild object (by simp [children]) (by omega), htype t (by omega)]
      rfl
    | constant value t =>
      simp only [toJson, Json.depth, Json.depthMembers] at hdepth
      have hvalue : value ∈ (constant value t).literals := by
        rw [literals_eq]
        exact List.mem_append_left _ (List.mem_singleton_self value)
      rw [decode_constant, Literal.ofJson_toJson value (hnames value hvalue), htype t (by omega)]
      rfl
    | parameter name t =>
      simp only [toJson, Json.depth, Json.depthMembers] at hdepth
      rw [decode_parameter, htype t (by omega)]
      rfl
    | new t members =>
      simp only [toJson, Json.depth, Json.depthMembers] at hdepth
      rw [decode_new, htype t (by omega), hpairs members rfl (by omega)]
      rfl
    | call m receiver args t =>
      cases receiver with
      | none =>
        simp only [toJson, Json.depth, Json.depthMembers] at hdepth
        rw [decode_call_none, Method.ofJson?_toJson, hlist args (by simp [children]) (by omega),
          htype t (by omega)]
        rfl
      | some receiver =>
        simp only [toJson, Json.depth, Json.depthMembers] at hdepth
        rw [decode_call_some, Method.ofJson?_toJson,
          orNull?_toJson (hchild receiver List.mem_cons_self (by omega)),
          hlist args (fun c hc => List.mem_cons_of_mem _ hc) (by omega), htype t (by omega)]
        rfl
    | conditional test ifTrue ifFalse =>
      simp only [toJson, Json.depth, Json.depthMembers] at hdepth
      rw [decode_conditional, hchild test (by simp [children]) (by omega),
        hchild ifTrue (by simp [children]) (by omega),
        hchild ifFalse (by simp [children]) (by omega)]
      rfl
    | lambda params body =>
      simp only [toJson, Json.depth, Json.depthMembers] at hdepth
      rw [decode_lambda, Parameter.mapM_decode_toJson .lenient (by omega),
        hchild body (by simp [children]) (by omega)]
      rfl
    | memberInit t bindings =>
      simp only [toJson, Json.depth, Json.depthMembers] at hdepth
      rw [decode_memberInit, htype t (by omega), hpairs bindings rfl (by omega)]
      rfl
    | listInit t elements =>
      simp only [toJson, Json.depth, Json.depthMembers] at hdepth
      rw [decode_listInit, htype t (by omega), hlist elements (fun _ hc => hc) (by omega)]
      rfl
    | newArray t elements =>
      simp only [toJson, Json.depth, Json.depthMembers] at hdepth
      rw [decode_newArray, htype t (by omega), hlist elements (fun _ hc => hc) (by omega)]
      rfl
    | invoke target args t =>
      simp only [toJson, Json.depth, Json.depthMembers] at hdepth
      rw [decode_invoke, hchild target List.mem_cons_self (by omega),
        hlist args (fun c hc => List.mem_cons_of_mem _ hc) (by omega), htype t (by omega)]
      rfl
    | typeIs operand target =>
      simp only [toJson, Json.depth, Json.depthMembers] at hdepth
      rw [decode_typeIs, hchild operand (by simp [children]) (by omega), htype target (by omega)]
      rfl

/-! ### Numbers -/

theorem mem_itemNumbers_listToJson {n : Json.Number} {es : List Expr} :
    n ∈ Json.itemNumbers (listToJson es) ↔ ∃ e ∈ es, n ∈ e.toJson.numbers := by
  induction es with
  | nil => simp [listToJson, Json.itemNumbers]
  | cons e rest ih => simp [listToJson, Json.itemNumbers, ih]

theorem mem_itemNumbers_pairsToJson {n : Json.Number} {members : List (String × Expr)} :
    n ∈ Json.itemNumbers (pairsToJson members)
      ↔ ∃ e ∈ members.map Prod.snd, n ∈ e.toJson.numbers := by
  induction members with
  | nil => simp [pairsToJson, Json.itemNumbers]
  | cons m rest ih => simp [pairsToJson, Json.itemNumbers, Json.numbers, ih]

theorem itemNumbers_parameters (params : List Parameter) :
    Json.itemNumbers (params.map Parameter.toJson) = [] := by
  induction params with
  | nil => rfl
  | cons p rest ih =>
    simp [Json.itemNumbers, Json.numbers, Json.memberNumbers, Parameter.toJson, ih]

/-- A number in the JSON form of a node stands in its literal or in one of its children. -/
theorem mem_numbers_toJson {n : Json.Number} {e : Expr} (h : n ∈ e.toJson.numbers) :
    (∃ v, e.literal? = some v ∧ n ∈ v.toJson.numbers) ∨ ∃ c ∈ e.children, n ∈ c.toJson.numbers := by
  cases e with
  | parameter name t => simp [toJson, Json.numbers, Json.memberNumbers] at h
  | call m receiver args t =>
    cases receiver <;>
      simpa [toJson, Json.numbers, Json.memberNumbers, children, literal?,
        mem_itemNumbers_listToJson] using h
  | _ =>
    simpa [toJson, Json.numbers, Json.memberNumbers, children, literal?,
      mem_itemNumbers_listToJson, mem_itemNumbers_pairsToJson, itemNumbers_parameters] using h

/-- **The numbers in the JSON form of an expression** are integers of 64 bits and the doubles in its
literals. -/
theorem forall_numbers_toJson {P : Json.Number → Prop} (hint : ∀ i : Int64, P (.int i.toInt))
    (e : Expr) : (∀ v ∈ e.literals, ∀ x ∈ v.floats, P (.float x)) → ∀ n ∈ e.toJson.numbers, P n := by
  induction e using children_induction with
  | node e ih =>
    intro hfloats n hn
    rw [literals_eq, List.forall_mem_append] at hfloats
    obtain ⟨hnode, hchildren⟩ := hfloats
    rcases mem_numbers_toJson hn with ⟨v, hv, hn⟩ | ⟨c, hc, hn⟩
    · exact Literal.forall_numbers_toJson hint v (hnode v (Option.mem_toList.mpr hv)) n hn
    · exact ih c hc (fun v hv => hchildren v (List.mem_flatMap.mpr ⟨c, hc, hv⟩)) n hn

end Expr

end ChainQuery
