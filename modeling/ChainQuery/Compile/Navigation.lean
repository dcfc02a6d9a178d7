import ChainQuery.Compile.Scalar
import ChainQuery.Compile.Traced
import ChainQuery.Expr.Build
import ChainQuery.Schema.Basic
/-!
# Aggregates over related rows

`parent.Navigation.Aggregate(selector)` is computed by a query over the rows of the other type that
refer to `parent`:

`Table<Child>.Where(row => row.foreignKey == parent.primaryKey).Select(selector)`

A selector of `Count` is a predicate instead, and is added to the filter.
-/

namespace ChainQuery

namespace Expr

/-- The types through which an expression is reached from a parameter, if it is: the parameter's own
and those of the members on the way.  Conversions are passed over. -/
def memberPath? : Expr → Option (List Ty)
  | .parameter _ t => some [t]
  | .unary (.convert _) operand => operand.memberPath?
  | .member object _ t => object.memberPath?.map (· ++ [t])
  | _ => none

/-- Whether an expression calls an aggregate. -/
def isAggregate : Expr → Bool
  | .call (.aggregate _) _ _ _ => true
  | _ => false

end Expr

namespace Correlated

/-- The collection and the selector among the arguments of an aggregate. -/
def arguments? : List Expr → Option (Expr × Option Lambda)
  | [source] => some (source, none)
  | [source, .lambda params body] => some (source, some ⟨params, body⟩)
  | _ => none

/-- The filter and the projection of the related rows, and whether the aggregate is nested.  `text`
is the text of the whole call. -/
def clauses (text : String) (aggregate : Aggregate) (row : Parameter) (reference correlation : Expr)
    (selector : Option Lambda) : Except Error (Expr × Lambda × Bool) :=
  match aggregate, selector with
  | .count, none => .ok (correlation, .identity row, false)
  | .count, some predicate => .ok (.binary .and correlation predicate.body, .identity row, false)
  | _, none => .error (.invalidArgument ("'" ++ text ++ "' needs a selector"))
  | _, some selector =>
    if selector.body.isAggregate then
      let pair := Expr.record "KeyValuePair" [("Key", reference), ("Value", selector.body)]
      .ok (correlation, ⟨[row], pair⟩, true)
    else .ok (correlation, selector, false)

/-- **The query of an aggregate over a navigation.**  `text` is the text of the whole call. -/
def ofCall (schema : Schema) (text : String) (aggregate : Aggregate) (args : List Expr) :
    Traced Correlated := do
  let unsupported := Error.unsupportedMethod text
  match arguments? args with
  | none =>
    throw (.invalidArgument ("'" ++ text ++ "' takes a collection and an optional selector"))
  | some (.member object member type, selector) =>
    match type.element?.bind Ty.row?, object.type.row? with
    | some child, some parent =>
      match object.memberPath? with
      | none => throw unsupported
      | some path =>
        Traced.meetAll path
        let target ← schema.navigation parent member
        if target != child then
          throw (.missingMetadata
            ("navigation '" ++ parent ++ "." ++ member ++ "' to '" ++ child ++ "'"))
        let foreignKey ← schema.foreignKey child parent
        let primaryKey := (← schema.rowType parent).primaryKey
        if (selector.map fun l => l.params.length != 1).getD false then
          throw (.invalidArgument ("the selector of '" ++ text ++ "' must take one parameter"))
        let row := (selector.bind fun l => l.params.head?).getD ⟨"src", .row child⟩
        let reference := row.member foreignKey (← schema.columnType child foreignKey)
        let key := Expr.member object primaryKey (← schema.columnType parent primaryKey)
        let (predicate, projection, nested) ←
          clauses text aggregate row reference (.binary .equal reference key) selector
        let query := Query.select (.filter (.table child) ⟨[row], predicate⟩) projection
        return { query, aggregate, nested }
    | _, _ => throw unsupported
  | some _ => throw unsupported

end Correlated

end ChainQuery
