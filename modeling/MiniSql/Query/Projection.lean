/-
# Choosing columns

What a query shows is a list of positions of its columns. A star stands for all of them and `t.*`
for those whose labels name the table `t`, of which there has to be one. The columns shown are
named without their tables.
-/

import MiniSql.Query.Rowset

namespace MiniSql
namespace Rowset

/-- The positions of the labels that name a table, when the first stands at `start`. -/
def positionsOf (table : String) (start : Nat) : List String → List Nat
  | [] => []
  | l :: labels =>
    if labelTable l = table then start :: positionsOf table (start + 1) labels
    else positionsOf table (start + 1) labels

/-- The positions that an item stands for. -/
def pick (labels : List String) : SelectItem → Except Error (List Nat)
  | .all => .ok (List.range labels.length)
  | .allOf table =>
    match positionsOf table 0 labels with
    | [] => .error (.schema (.tableNotInQuery table))
    | picked => .ok picked
  | .column c => do return [← c.resolve labels]

/-- The columns that some items stand for. -/
def project (s : Rowset) (items : List SelectItem) : Except Error Rowset := do
  let picked := (← items.mapM (pick s.columns)).flatten
  return {
    columns := picked.map fun i => labelColumn (s.columns[i]?.getD "")
    rows := s.rows.map fun row => picked.map fun i => Relation.valueAt i row }

end Rowset
end MiniSql
