import ChainQuery.Proofs.Expr.ReadBack
import ChainQuery.Proofs.Query.Chain
import ChainQuery.Query.Json
/-!
# Reading back queries

A query is read back from its JSON form, and from the text of that form in either layout: the same
operators over the same expressions, with the members of captured objects in their order, integers and
doubles apart, and missing receivers missing (`Query.read_of_written`).  Captured objects must name each
member once, as maps do.  The JSON form may nest as many arrays and objects as any text may, and the
doubles must be finite, since no text writes the others.  The text is read back if the doubles are: how
exactly a double is read is decided by the reader of numbers alone (`Json.Number.ReadsBack`).
-/

namespace ChainQuery

/-! ## 1. Lambdas -/

/-- **A lambda of a query is read back.** -/
theorem Lambda.decode_toJson {l : Lambda} (hnames : ∀ v ∈ l.body.literals, v.namesDistinct = true)
    (hdepth : l.toJson.depth ≤ Json.maxDepth) : Lambda.decode l.toJson = some l := by
  simp only [toJson, Json.depth, Json.depthMembers] at hdepth
  have hread : Lambda.decode l.toJson = do
      return { params := ← (l.params.map Parameter.toJson).mapM (Parameter.decode .lenient Json.maxDepth)
               body := ← Expr.decode Json.maxDepth .lenient l.body.toJson } := rfl
  rw [hread, Parameter.mapM_decode_toJson .lenient (by omega),
    Expr.decode_toJson l.body hnames (by omega) (Nat.le_refl _) .lenient]
  rfl

/-- The numbers in the JSON form of a lambda are those of its body. -/
theorem Lambda.numbers_toJson (l : Lambda) : l.toJson.numbers = l.body.toJson.numbers := by
  simp [toJson, Json.numbers, Json.memberNumbers, Expr.itemNumbers_parameters]

namespace Query

/-! ## 2. Reading -/

/-- The literals in a query. -/
def literals (q : Query) : List Literal := q.exprs.flatMap Expr.literals

/-- The doubles in a query. -/
def floats (q : Query) : List Float := q.literals.flatMap Literal.floats

section Operators

variable (manner : Json.Manner) (levels : Nat) (source : Query)

theorem decode_table (rowType : String) :
    decode (levels + 1) manner (table rowType).toJson = some (.table rowType) := rfl

theorem decode_select (selector : Lambda) :
    decode (levels + 1) manner (select source selector).toJson = do
      return .select (← decode levels .lenient source.toJson) (← Lambda.decode selector.toJson) := rfl

theorem decode_filter (predicate : Lambda) :
    decode (levels + 1) manner (filter source predicate).toJson = do
      return .filter (← decode levels .lenient source.toJson) (← Lambda.decode predicate.toJson) := rfl

theorem decode_join (outer inner : Query) (outerKey innerKey result : Lambda) :
    decode (levels + 1) manner (join outer inner outerKey innerKey result).toJson = do
      return .join (← decode levels .lenient outer.toJson) (← decode levels .lenient inner.toJson)
        (← Lambda.decode outerKey.toJson) (← Lambda.decode innerKey.toJson)
        (← Lambda.decode result.toJson) := rfl

theorem decode_crossJoin (collection : Query) (result : Lambda) :
    decode (levels + 1) manner (crossJoin source collection result).toJson = do
      return .crossJoin (← decode levels .lenient source.toJson)
        (← decode levels .lenient collection.toJson) (← Lambda.decode result.toJson) := rfl

theorem decode_orderBy (key : Lambda) (kind : OrderingKind) :
    decode (levels + 1) manner (orderBy source key kind).toJson = do
      return .orderBy (← decode levels .lenient source.toJson) (← Lambda.decode key.toJson)
        (← OrderingKind.ofName? kind.name) := rfl

theorem decode_call (method : String) (args : List Expr) :
    decode (levels + 1) manner (call method source args).toJson = do
      return .call method (← decode levels .lenient source.toJson)
        (← Expr.listOf? (Expr.decode Json.maxDepth .lenient) (.array (Expr.listToJson args))) := rfl

end Operators

/-- **A query is read back from its JSON form**, in either manner and with as many levels as it
nests. -/
theorem decode_toJson (q : Query) : (∀ e ∈ q.exprs, ∀ v ∈ e.literals, v.namesDistinct = true) →
    ∀ {levels : Nat}, q.toJson.depth ≤ levels → levels ≤ Json.maxDepth →
      ∀ manner : Json.Manner, decode levels manner q.toJson = some q := by
  induction q with
  | table rowType =>
    intro _ levels hdepth _ manner
    obtain ⟨levels, rfl⟩ := Nat.exists_eq_add_of_le' hdepth
    exact decode_table manner levels rowType
  | select source selector ih =>
    intro hnames levels hdepth hmax manner
    simp only [exprs, List.forall_mem_append, List.forall_mem_singleton] at hnames
    simp only [toJson, Json.depth, Json.depthMembers] at hdepth
    obtain ⟨levels, rfl⟩ := Nat.exists_eq_add_of_le' (show 1 ≤ levels by omega)
    rw [decode_select, ih hnames.1 (by omega) (by omega),
      Lambda.decode_toJson hnames.2 (by omega)]
    rfl
  | filter source predicate ih =>
    intro hnames levels hdepth hmax manner
    simp only [exprs, List.forall_mem_append, List.forall_mem_singleton] at hnames
    simp only [toJson, Json.depth, Json.depthMembers] at hdepth
    obtain ⟨levels, rfl⟩ := Nat.exists_eq_add_of_le' (show 1 ≤ levels by omega)
    rw [decode_filter, ih hnames.1 (by omega) (by omega),
      Lambda.decode_toJson hnames.2 (by omega)]
    rfl
  | join outer inner outerKey innerKey result ihouter ihinner =>
    intro hnames levels hdepth hmax manner
    simp only [exprs, List.forall_mem_append, List.forall_mem_cons] at hnames
    obtain ⟨⟨houter, hinner⟩, houterKey, hinnerKey, hresult, -⟩ := hnames
    simp only [toJson, Json.depth, Json.depthMembers] at hdepth
    obtain ⟨levels, rfl⟩ := Nat.exists_eq_add_of_le' (show 1 ≤ levels by omega)
    rw [decode_join, ihouter houter (by omega) (by omega), ihinner hinner (by omega) (by omega),
      Lambda.decode_toJson houterKey (by omega), Lambda.decode_toJson hinnerKey (by omega),
      Lambda.decode_toJson hresult (by omega)]
    rfl
  | crossJoin source collection result ihsource ihcollection =>
    intro hnames levels hdepth hmax manner
    simp only [exprs, List.forall_mem_append, List.forall_mem_singleton] at hnames
    obtain ⟨⟨hsource, hcollection⟩, hresult⟩ := hnames
    simp only [toJson, Json.depth, Json.depthMembers] at hdepth
    obtain ⟨levels, rfl⟩ := Nat.exists_eq_add_of_le' (show 1 ≤ levels by omega)
    rw [decode_crossJoin, ihsource hsource (by omega) (by omega),
      ihcollection hcollection (by omega) (by omega), Lambda.decode_toJson hresult (by omega)]
    rfl
  | orderBy source key kind ih =>
    intro hnames levels hdepth hmax manner
    simp only [exprs, List.forall_mem_append, List.forall_mem_singleton] at hnames
    simp only [toJson, Json.depth, Json.depthMembers] at hdepth
    obtain ⟨levels, rfl⟩ := Nat.exists_eq_add_of_le' (show 1 ≤ levels by omega)
    rw [decode_orderBy, ih hnames.1 (by omega) (by omega),
      Lambda.decode_toJson hnames.2 (by omega), OrderingKind.ofName?_name]
    rfl
  | call method source args ih =>
    intro hnames levels hdepth hmax manner
    simp only [exprs, List.forall_mem_append] at hnames
    simp only [toJson, Json.depth, Json.depthMembers] at hdepth
    obtain ⟨levels, rfl⟩ := Nat.exists_eq_add_of_le' (show 1 ≤ levels by omega)
    have hargs : ∀ e ∈ args, e.toJson.depth ≤ Json.maxDepth :=
      Expr.forall_depth_of_listToJson (by omega)
    rw [decode_call, ih hnames.1 (by omega) (by omega), Expr.listOf?_listToJson fun e he =>
      Expr.decode_toJson e (hnames.2 e he) (hargs e he) (Nat.le_refl _) .lenient]
    rfl

/-! ## 3. Numbers -/

/-- A number in the JSON form of a query stands in one of its expressions. -/
theorem mem_numbers_toJson {n : Json.Number} {q : Query} :
    n ∈ q.toJson.numbers ↔ ∃ e ∈ q.exprs, n ∈ e.toJson.numbers := by
  induction q with
  | table => simp [toJson, exprs, Json.numbers, Json.memberNumbers]
  | select source _ ih | filter source _ ih | orderBy source _ _ ih =>
    simp [toJson, exprs, Json.numbers, Json.memberNumbers, Lambda.numbers_toJson, ih, or_and_right,
      exists_or]
  | join _ _ _ _ _ ihouter ihinner =>
    simp [toJson, exprs, Json.numbers, Json.memberNumbers, Lambda.numbers_toJson, ihouter, ihinner,
      or_and_right, exists_or]
  | crossJoin _ _ _ ihsource ihcollection =>
    simp [toJson, exprs, Json.numbers, Json.memberNumbers, Lambda.numbers_toJson, ihsource,
      ihcollection, or_and_right, exists_or]
  | call _ source args ih =>
    simp [toJson, exprs, Json.numbers, Json.memberNumbers, Expr.mem_itemNumbers_listToJson, ih,
      or_and_right, exists_or]

/-- **The numbers in the JSON form of a query** are integers of 64 bits and its doubles. -/
theorem forall_numbers_toJson {P : Json.Number → Prop} (hint : ∀ i : Int64, P (.int i.toInt))
    {q : Query} (hfloat : ∀ x ∈ q.floats, P (.float x)) : ∀ n ∈ q.toJson.numbers, P n := by
  intro n hn
  obtain ⟨e, he, hn⟩ := mem_numbers_toJson.mp hn
  refine Expr.forall_numbers_toJson hint e (fun v hv x hx => hfloat x ?_) n hn
  exact List.mem_flatMap.mpr ⟨v, List.mem_flatMap.mpr ⟨e, he, hv⟩, hx⟩

theorem inRange_toJson {q : Query} (hfinite : ∀ x ∈ q.floats, x.isFinite = true) :
    q.toJson.inRange = true := by
  refine Json.inRange_of_numbers _ fun x hx => ?_
  have hnumbers : ∀ n ∈ q.toJson.numbers, ∀ x, n = .float x → x.isFinite = true := by
    refine forall_numbers_toJson (fun _ _ => nofun) ?_
    rintro x hx _ ⟨⟩
    exact hfinite x hx
  exact hnumbers _ hx x rfl

/-! ## 4. Texts -/

/-- **A written query is read back**: from its JSON form, and from either text of that if the doubles in
it are read exactly. -/
theorem read_of_written {q : Query} (hnames : ∀ v ∈ q.literals, v.namesDistinct = true)
    (hfinite : ∀ x ∈ q.floats, x.isFinite = true) (hdepth : q.toJson.depth ≤ Json.maxDepth) :
    ofJson? q.toJson = some q ∧
      ((∀ x ∈ q.floats, (Json.Number.float x).ReadsBack) →
        parse? q.toJson.compact = some q ∧ parse? (q.toJson.pretty 0) = some q) := by
  have hexprs : ∀ e ∈ q.exprs, ∀ v ∈ e.literals, v.namesDistinct = true :=
    fun e he v hv => hnames v (List.mem_flatMap.mpr ⟨e, he, hv⟩)
  have hread : ofJson? q.toJson = some q := by
    rw [ofJson?, if_pos (by simp [hdepth, inRange_toJson hfinite])]
    exact decode_toJson q hexprs hdepth (Nat.le_refl _) .strict
  refine ⟨hread, fun hexact => ?_⟩
  have hnumbers : ∀ n ∈ q.toJson.numbers, n.ReadsBack :=
    forall_numbers_toJson Json.Number.readsBack_int64 hexact
  have hpretty := Json.parse?_pretty hnumbers Json.all_isBlank_empty
  rw [String.append_empty] at hpretty
  rw [parse?, parse?, Json.parse?_compact hnumbers, hpretty]
  exact ⟨hread, hread⟩

/-- A query over the customers of a captured city: a captured object whose members are not in the order
of their names, doubles beside an integer, and a method without receiver. -/
def captured : Query :=
  let c : Parameter := ⟨"c", .row "Customer"⟩
  let closure : Literal := .object [("city", .string "Oslo"), ("age", .int 40), ("bonus", .null)]
  let ofCity : Expr := .binary .equal (.member c.reference "City" (.scalar .string))
    (.member (.constant closure closure.type) "city" (.scalar .string))
  let rates : Literal := .list [.float 0.5, .float 0.1, .float (-0.0), .int 1]
  let scaled : Expr := .call (.other "Math" "Scale") none
    [.constant rates rates.type,
      .unary (.convert (.nullable (.scalar .double))) (.member c.reference "Id" (.scalar .int32))]
    (.record "Scaled" [("value", .scalar .double), ("rates", .collection (.scalar .double))])
  .call "Take" (.select (.filter (.table "Customer") ⟨[c], ofCity⟩) ⟨[c], scaled⟩)
    [.constant (.int 10) (.scalar .int32)]

theorem read_of_written_captured :
    (∀ v ∈ captured.literals, v.namesDistinct = true) ∧
    (∀ x ∈ captured.floats, x.isFinite = true) ∧ captured.toJson.depth ≤ Json.maxDepth ∧
    (∀ x ∈ captured.floats, (Json.Number.float x).ReadsBack) ∧
    ofJson? captured.toJson = some captured ∧ parse? captured.toJson.compact = some captured ∧
    parse? (captured.toJson.pretty 0) = some captured := by
  have hnames : ∀ v ∈ captured.literals, v.namesDistinct = true := by decide
  have hfinite : ∀ x ∈ captured.floats, x.isFinite = true := by decide
  have hdepth : captured.toJson.depth ≤ Json.maxDepth := by decide
  have hexact : ∀ x ∈ captured.floats, (Json.Number.float x).ReadsBack := by
    have hfloats : captured.floats = [0.5, 0.1, -0.0] := rfl
    rw [hfloats]
    simp only [List.forall_mem_cons]
    exact ⟨rfl, rfl, rfl, nofun⟩
  obtain ⟨hread, htexts⟩ := read_of_written hnames hfinite hdepth
  exact ⟨hnames, hfinite, hdepth, hexact, hread, htexts hexact⟩

end Query

end ChainQuery
