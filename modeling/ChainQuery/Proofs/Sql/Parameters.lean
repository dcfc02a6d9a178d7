import ChainQuery.Sql.Text
import Mathlib.Data.List.Basic
/-!
# Statements that differ in their parameters

`Select.mapParams` replaces the parameters of a statement.  The text of a statement is written without
looking at them: two statements that differ only in their parameters have the same text, and the
parameters of the one are those of the other, replaced one by one (`Select.render_mapParams`).
-/

namespace ChainQuery.Sql

variable (g : Param → Param)

/-! ## 1. Replacing parameters -/

mutual
/-- An expression with its parameters replaced. -/
def Expr.mapParams : Expr → Expr
  | .and left right => .and left.mapParams right.mapParams
  | .or left right => .or left.mapParams right.mapParams
  | .not operand => .not operand.mapParams
  | .negate operand => .negate operand.mapParams
  | .op left token right => .op left.mapParams token right.mapParams
  | .isNull operand => .isNull operand.mapParams
  | .isNotNull operand => .isNotNull operand.mapParams
  | .call function args => .call function (Expr.listMapParams args)
  | .like subject pattern wildcards => .like subject.mapParams pattern.mapParams wildcards
  | .case test ifTrue ifFalse => .case test.mapParams ifTrue.mapParams ifFalse.mapParams
  | .column ref => .column ref
  | .param value => .param (g value)
  | .null => .null
  | .bool value => .bool value
  | .countAll => .countAll
  | .subselect select => .subselect select.mapParams

/-- Expressions with their parameters replaced. -/
def Expr.listMapParams : List Expr → List Expr
  | [] => []
  | e :: rest => e.mapParams :: Expr.listMapParams rest

/-- Expressions with aliases, with their parameters replaced. -/
def Expr.aliasedMapParams : List (String × Expr) → List (String × Expr)
  | [] => []
  | (label, e) :: rest => (label, e.mapParams) :: Expr.aliasedMapParams rest

/-- Keys with their parameters replaced. -/
def Expr.orderMapParams : List (Expr × Direction) → List (Expr × Direction)
  | [] => []
  | (e, direction) :: rest => (e.mapParams, direction) :: Expr.orderMapParams rest

/-- A select list with its parameters replaced. -/
def SelectList.mapParams : SelectList → SelectList
  | .plain items => .plain (Expr.listMapParams items)
  | .aliased items => .aliased (Expr.aliasedMapParams items)

/-- What is selected from, with its parameters replaced. -/
def From.mapParams : From → From
  | .table ref label => .table ref label
  | .derived select label => .derived select.mapParams label

/-- A join with its parameters replaced. -/
def Join.mapParams : Join → Join
  | .inner ref left right => .inner ref left.mapParams right.mapParams
  | .cross select label => .cross select.mapParams label

/-- Joins with their parameters replaced. -/
def Join.listMapParams : List Join → List Join
  | [] => []
  | j :: rest => j.mapParams :: Join.listMapParams rest

/-- **A selection with its parameters replaced.** -/
def Select.mapParams : Select → Select
  | ⟨list, source, joins, filter, orderBy⟩ =>
    ⟨list.mapParams,
      match source with
        | none => none
        | some f => some f.mapParams,
      Join.listMapParams joins, filter.mapParams, Expr.orderMapParams orderBy⟩
end

variable {g}

@[simp] theorem Expr.listMapParams_eq_map (es : List Expr) :
    Expr.listMapParams g es = es.map (Expr.mapParams g) := by
  induction es with
  | nil => rfl
  | cons e rest ih => simp [listMapParams, ih]

@[simp] theorem Expr.aliasedMapParams_eq_map (items : List (String × Expr)) :
    Expr.aliasedMapParams g items = items.map fun item => (item.1, item.2.mapParams g) := by
  induction items with
  | nil => rfl
  | cons item rest ih => simp [aliasedMapParams, ih]

@[simp] theorem Expr.orderMapParams_eq_map (keys : List (Expr × Direction)) :
    Expr.orderMapParams g keys = keys.map fun key => (key.1.mapParams g, key.2) := by
  induction keys with
  | nil => rfl
  | cons key rest ih => simp [orderMapParams, ih]

@[simp] theorem Join.listMapParams_eq_map (joins : List Join) :
    Join.listMapParams g joins = joins.map (Join.mapParams g) := by
  induction joins with
  | nil => rfl
  | cons join rest ih => simp [listMapParams, ih]

mutual
theorem Expr.mapParams_id : ∀ e : Expr, e.mapParams id = e
  | .and l r => by rw [Expr.mapParams, l.mapParams_id, r.mapParams_id]
  | .or l r => by rw [Expr.mapParams, l.mapParams_id, r.mapParams_id]
  | .not e => by rw [Expr.mapParams, e.mapParams_id]
  | .negate e => by rw [Expr.mapParams, e.mapParams_id]
  | .op l _ r => by rw [Expr.mapParams, l.mapParams_id, r.mapParams_id]
  | .isNull e => by rw [Expr.mapParams, e.mapParams_id]
  | .isNotNull e => by rw [Expr.mapParams, e.mapParams_id]
  | .call _ args => by rw [Expr.mapParams, Expr.listMapParams_id args]
  | .like x p _ => by rw [Expr.mapParams, x.mapParams_id, p.mapParams_id]
  | .case a b c => by rw [Expr.mapParams, a.mapParams_id, b.mapParams_id, c.mapParams_id]
  | .column _ | .param _ | .null | .bool _ | .countAll => rfl
  | .subselect s => by rw [Expr.mapParams, s.mapParams_id]

theorem Expr.listMapParams_id : ∀ es : List Expr, Expr.listMapParams id es = es
  | [] => rfl
  | e :: rest => by rw [Expr.listMapParams, e.mapParams_id, Expr.listMapParams_id rest]

theorem Expr.aliasedMapParams_id :
    ∀ items : List (String × Expr), Expr.aliasedMapParams id items = items
  | [] => rfl
  | (_, e) :: rest => by rw [Expr.aliasedMapParams, e.mapParams_id, Expr.aliasedMapParams_id rest]

theorem Expr.orderMapParams_id : ∀ keys : List (Expr × Direction), Expr.orderMapParams id keys = keys
  | [] => rfl
  | (e, _) :: rest => by rw [Expr.orderMapParams, e.mapParams_id, Expr.orderMapParams_id rest]

theorem SelectList.mapParams_id : ∀ list : SelectList, list.mapParams id = list
  | .plain items => by rw [SelectList.mapParams, Expr.listMapParams_id items]
  | .aliased items => by rw [SelectList.mapParams, Expr.aliasedMapParams_id items]

theorem From.mapParams_id : ∀ f : From, f.mapParams id = f
  | .table _ _ => rfl
  | .derived s _ => by rw [From.mapParams, s.mapParams_id]

theorem Join.mapParams_id : ∀ j : Join, j.mapParams id = j
  | .inner _ l r => by rw [Join.mapParams, l.mapParams_id, r.mapParams_id]
  | .cross s _ => by rw [Join.mapParams, s.mapParams_id]

theorem Join.listMapParams_id : ∀ joins : List Join, Join.listMapParams id joins = joins
  | [] => rfl
  | j :: rest => by rw [Join.listMapParams, j.mapParams_id, Join.listMapParams_id rest]

theorem Select.mapParams_id : ∀ s : Select, s.mapParams id = s
  | ⟨list, none, joins, filter, orderBy⟩ => by
    simp only [Select.mapParams, list.mapParams_id, Join.listMapParams_id joins,
      filter.mapParams_id, Expr.orderMapParams_id orderBy]
  | ⟨list, some f, joins, filter, orderBy⟩ => by
    simp only [Select.mapParams, list.mapParams_id, f.mapParams_id, Join.listMapParams_id joins,
      filter.mapParams_id, Expr.orderMapParams_id orderBy]
end

/-! ## 2. Texts -/

/-- A piece with its parameter replaced. -/
def Piece.mapParam (g : Param → Param) : Piece → Piece
  | .text t => .text t
  | .param value => .param (g value)

/-- What is written for pieces does not look at the parameters. -/
theorem Buffer.append_mapParam (g : Param → Param) (b : Buffer) (pieces : List Piece) :
    Buffer.append { b with params := b.params.map g } (pieces.map (Piece.mapParam g))
      = { Buffer.append b pieces with params := (Buffer.append b pieces).params.map g } := by
  induction pieces generalizing b with
  | nil => rfl
  | cons piece rest ih =>
    cases piece with
    | text t => exact ih (b.addText t)
    | param value =>
      have hadd : Buffer.addParam { b with params := b.params.map g } (g value)
          = { b.addParam value with params := (b.addParam value).params.map g } := by
        simp [addParam]
      change Buffer.append (Buffer.addParam _ _) _ = _
      rw [hadd]
      exact ih (b.addParam value)

@[simp] theorem Expr.isAlways_mapParams (e : Expr) : (e.mapParams g).isAlways = e.isAlways := by
  cases e <;> rfl

@[simp] theorem Expr.wherePieces_mapParams (filter : Expr) (predicate : List Piece) :
    (filter.mapParams g).wherePieces (predicate.map (Piece.mapParam g))
      = (filter.wherePieces predicate).map (Piece.mapParam g) := by
  unfold wherePieces
  rw [isAlways_mapParams]
  split <;> rfl

@[simp] theorem Direction.map_pieces (direction : Direction) :
    direction.pieces.map (Piece.mapParam g) = direction.pieces := by
  cases direction <;> rfl

@[simp] theorem map_aliasPieces (label : Option String) :
    (aliasPieces label).map (Piece.mapParam g) = aliasPieces label := by
  cases label <;> rfl

mutual
/-- **The pieces of a statement are those of the other with their parameters replaced**, part by
part. -/
theorem Expr.pieces_mapParams :
    ∀ e : Expr, (e.mapParams g).pieces = e.pieces.map (Piece.mapParam g)
  | .and l r => by
    simp [Expr.mapParams, Expr.pieces, l.pieces_mapParams, r.pieces_mapParams, Piece.mapParam]
  | .or l r => by
    simp [Expr.mapParams, Expr.pieces, l.pieces_mapParams, r.pieces_mapParams, Piece.mapParam]
  | .not e => by simp [Expr.mapParams, Expr.pieces, e.pieces_mapParams, Piece.mapParam]
  | .negate e => by simp [Expr.mapParams, Expr.pieces, e.pieces_mapParams, Piece.mapParam]
  | .op l _ r => by
    simp [Expr.mapParams, Expr.pieces, l.pieces_mapParams, r.pieces_mapParams, Piece.mapParam]
  | .isNull e => by simp [Expr.mapParams, Expr.pieces, e.pieces_mapParams, Piece.mapParam]
  | .isNotNull e => by simp [Expr.mapParams, Expr.pieces, e.pieces_mapParams, Piece.mapParam]
  | .call _ args => by simp [Expr.mapParams, Expr.pieces, Expr.listPieces_map args, Piece.mapParam]
  | .like x p _ => by
    simp [Expr.mapParams, Expr.pieces, x.pieces_mapParams, p.pieces_mapParams, Piece.mapParam]
  | .case a b c => by
    simp [Expr.mapParams, Expr.pieces, a.pieces_mapParams, b.pieces_mapParams, c.pieces_mapParams,
      Piece.mapParam]
  | .column _ | .param _ | .null | .bool _ | .countAll => rfl
  | .subselect s => by simp [Expr.mapParams, Expr.pieces, s.pieces_mapParams, Piece.mapParam]

theorem Expr.listPieces_map : ∀ es : List Expr,
    Expr.listPieces (es.map (Expr.mapParams g)) = (Expr.listPieces es).map (Piece.mapParam g)
  | [] => rfl
  | [e] => e.pieces_mapParams
  | e :: e' :: rest => by
    have ih := Expr.listPieces_map (e' :: rest)
    simp only [List.map_cons] at ih
    simp [Expr.listPieces, e.pieces_mapParams, ih, Piece.mapParam]

theorem Expr.aliasedPieces_map : ∀ items : List (String × Expr),
    Expr.aliasedPieces (items.map fun item => (item.1, item.2.mapParams g))
      = (Expr.aliasedPieces items).map (Piece.mapParam g)
  | [] => rfl
  | [(_, e)] => by simp [Expr.aliasedPieces, e.pieces_mapParams, Piece.mapParam]
  | (_, e) :: item :: rest => by
    have ih := Expr.aliasedPieces_map (item :: rest)
    simp only [List.map_cons] at ih
    simp [Expr.aliasedPieces, e.pieces_mapParams, ih, Piece.mapParam]

theorem Expr.orderPieces_map : ∀ keys : List (Expr × Direction),
    Expr.orderPieces (keys.map fun key => (key.1.mapParams g, key.2))
      = (Expr.orderPieces keys).map (Piece.mapParam g)
  | [] => rfl
  | [(e, _)] => by simp [Expr.orderPieces, e.pieces_mapParams]
  | (e, _) :: key :: rest => by
    have ih := Expr.orderPieces_map (key :: rest)
    simp only [List.map_cons] at ih
    simp [Expr.orderPieces, e.pieces_mapParams, ih, Piece.mapParam]

theorem SelectList.pieces_mapParams :
    ∀ list : SelectList, (list.mapParams g).pieces = list.pieces.map (Piece.mapParam g)
  | .plain items => by simp [SelectList.mapParams, SelectList.pieces, Expr.listPieces_map items]
  | .aliased items => by simp [SelectList.mapParams, SelectList.pieces, Expr.aliasedPieces_map items]

theorem From.pieces_mapParams :
    ∀ f : From, (f.mapParams g).pieces = f.pieces.map (Piece.mapParam g)
  | .table _ _ => by simp [From.mapParams, From.pieces, Piece.mapParam]
  | .derived s _ => by simp [From.mapParams, From.pieces, s.pieces_mapParams, Piece.mapParam]

theorem Join.pieces_mapParams :
    ∀ j : Join, (j.mapParams g).pieces = j.pieces.map (Piece.mapParam g)
  | .inner _ l r => by
    simp [Join.mapParams, Join.pieces, l.pieces_mapParams, r.pieces_mapParams, Piece.mapParam]
  | .cross s _ => by simp [Join.mapParams, Join.pieces, s.pieces_mapParams, Piece.mapParam]

theorem Join.listPieces_map : ∀ joins : List Join,
    Join.listPieces (joins.map (Join.mapParams g)) = (Join.listPieces joins).map (Piece.mapParam g)
  | [] => rfl
  | j :: rest => by simp [Join.listPieces, j.pieces_mapParams, Join.listPieces_map rest]

theorem Select.pieces_mapParams :
    ∀ s : Select, (s.mapParams g).pieces = s.pieces.map (Piece.mapParam g)
  | ⟨list, none, joins, filter, orderBy⟩ => by
    simp [Select.mapParams, Select.pieces, list.pieces_mapParams, Join.listPieces_map joins,
      filter.pieces_mapParams, Expr.orderPieces_map orderBy, apply_ite (List.map (Piece.mapParam g)),
      Piece.mapParam]
  | ⟨list, some f, joins, filter, orderBy⟩ => by
    simp [Select.mapParams, Select.pieces, list.pieces_mapParams, f.pieces_mapParams,
      Join.listPieces_map joins, filter.pieces_mapParams, Expr.orderPieces_map orderBy,
      apply_ite (List.map (Piece.mapParam g)), Piece.mapParam]
end

/-- **The text of a statement does not depend on its parameters**, and its parameters are replaced
one by one. -/
theorem Select.render_mapParams (g : Param → Param) (s : Select) :
    (s.mapParams g).render = { s.render with params := s.render.params.map g } := by
  rw [Select.render, Select.render, Select.pieces_mapParams]
  exact Buffer.append_mapParam g {} s.pieces

end ChainQuery.Sql
