import JointQuery.Query.Basic

/-! The grouping domain of a query: every combination of the values of its group-by columns, in
the order of an odometer whose last column turns fastest. An index names the same combination for
every party that holds the query. -/
namespace JointQuery

/-- A group-by column with the values it takes. -/
structure Dimension where
  column : Column
  values : List GroupValue
  deriving DecidableEq, Repr

/-- `DomainIterator`: a grouping domain and the number of its tuples. -/
structure Domain where
  dimensions : List Dimension
  count : Nat
  deriving DecidableEq, Repr

namespace Domain

/-- `MAX_TUPLE_COUNT`: the most tuples that a party can address. -/
def maxCount : Nat := Nat.pow 2 31 - 1

/-- Why a domain with this many dimensions has too many tuples. -/
def overflow (dimensions : Nat) : QueryError :=
  .domainOverflow (UInt64.ofNat dimensions) (UInt64.ofNat maxCount)

/-- Why a column without values is refused. -/
def empty (column : Column) : QueryError :=
  .invalidQuery ("group-by column " ++ column.label ++ " declares no values")

/-- Adds columns to a domain one by one, as `DomainIterator::new` does. A column has to declare at
least one value, and the number of tuples may at no point pass `maxCount`. -/
def extend (total : Nat) (dimensions : List Dimension) (count : Nat) :
    List Column → Except QueryError Domain
  | [] => .ok ⟨dimensions, count⟩
  | column :: rest =>
    match column.domain with
    | none => .error (Query.undeclared column)
    | some [] => .error (empty column)
    | some values =>
      if maxCount < count * values.length then .error (overflow total)
      else extend total (dimensions ++ [⟨column, values⟩]) (count * values.length) rest

/-- `DomainIterator::new`: the domain of a query. -/
def ofQuery (query : Query) : Except QueryError Domain :=
  extend query.groupBys.length [] 1 query.groupBys

/-- How many values each dimension has. -/
def radices (domain : Domain) : List Nat :=
  domain.dimensions.map (·.values.length)

/-- `DomainIterator::column_names`: the labels of the columns. -/
def columnNames (domain : Domain) : List String :=
  domain.dimensions.map (·.column.label)

/-- The digits of a number to mixed radices, the last radix first, and what is left of it. -/
def digits : List Nat → Nat → List Nat × Nat
  | [], n => ([], n)
  | radix :: rest, n =>
    let (positions, carried) := digits rest n
    (carried % radix :: positions, carried / radix)

/-- `DomainIterator::positions`: for each dimension the place of its value in the tuple at
`index`. -/
def positions (domain : Domain) (index : Nat) : Option (List Nat) :=
  if index < domain.count then some (digits domain.radices index).1 else none

/-- The values at one place of each dimension. -/
def valuesAt (dimensions : List Dimension) (positions : List Nat) : List GroupValue :=
  List.zipWith (fun dimension place => (dimension.values[place]?).join) dimensions positions

/-- `DomainIterator::tuple`: the tuple at `index`. -/
def tuple (domain : Domain) (index : Nat) : Option (List GroupValue) :=
  (domain.positions index).map (valuesAt domain.dimensions)

/-- `DomainIterator::local_values`: the values of the tuple at `index` that `party` holds, in the
order of the columns. -/
def localValues (domain : Domain) (index : Nat) (party : Party) : Option (List GroupValue) :=
  (domain.tuple index).map fun values =>
    ((domain.dimensions.zip values).filter fun entry => entry.1.column.db == party).map (·.2)

end Domain

end JointQuery
