import ChainQuery.Schema.Basic
import ChainQuery.Expr.Build
/-!
# A sample schema: the shop

Customers have orders and orders have lines.  Tables and columns are named like the row types and
members that they hold, and every primary key is `Id`.
-/

namespace ChainQuery.Shop

/-- A column named like its member. -/
def column (name : String) (type : ScalarType) : String × Column := (name, { name, type })

/-- Customers. -/
def customer : RowType where
  table := "Customer"
  primaryKey := "Id"
  columns := [column "Id" .int32, column "Name" .string, column "City" .string]
  navigations := [("Orders", "Order")]

/-- Orders of customers. -/
def order : RowType where
  table := "Order"
  primaryKey := "Id"
  columns := [column "Id" .int32, column "CustomerId" .int32, column "Amount" .decimal]
  foreignKeys := [("Customer", "CustomerId")]
  navigations := [("Lines", "OrderLine")]

/-- Lines of orders. -/
def orderLine : RowType where
  table := "OrderLine"
  primaryKey := "Id"
  columns := [column "Id" .int32, column "OrderId" .int32, column "Quantity" .int32]
  foreignKeys := [("Order", "OrderId")]

/-- The schema of the shop. -/
def schema : Schema where
  rowTypes := [("Customer", customer), ("Order", order), ("OrderLine", orderLine)]

/-- The type of a member of a row of the shop; members that are not known are integers. -/
def memberType (rowType member : String) : Ty :=
  match rowType, member with
  | "Customer", "Name" => .scalar .string
  | "Customer", "City" => .scalar .string
  | "Order", "Amount" => .scalar .decimal
  | "Customer", "Orders" => .collection (.row "Order")
  | "Order", "Lines" => .collection (.row "OrderLine")
  | _, _ => .scalar .int32

/-- A member of a row that a parameter stands for, with the type it has in the shop. -/
def field (p : Parameter) (member : String) : Expr :=
  p.member member (memberType (p.type.row?.getD "") member)

end ChainQuery.Shop
