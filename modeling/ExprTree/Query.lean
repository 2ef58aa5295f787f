import ExprTree.Eval.Run

/-!
# Query operators

Operators over sequences of values. They give lists, dictionaries or single
values; a function among the arguments is called once for each item that is
looked at, in order, and what it does to the heap stays done. Such a function
may change the list that is gone through: an item is looked at when its turn
comes.
-/

namespace ExprTree.Query

/-! ## Sources -/

/-- What is gone through: items that stay what they are, or a list that may change meanwhile. -/
inductive Source where
  | fixed (items : List Value)
  | list (address : Nat)
deriving Repr

/-- The items of a source, as things are. -/
def Source.items (h : Heap) : Source → List Value
  | .fixed vs => vs
  | .list a => (h.list? (.ref a)).getD []

/-- What a value has to go through: a text its characters, a dictionary its keys. -/
def source (v : Value) : Run Source := do
  let h ← get
  match v with
  | .str s => return .fixed (s.toList.map fun c => .str (String.singleton c))
  | .char c => return .fixed [.str (String.singleton c)]
  | .bytes bs => return .fixed (bs.map (.int ·.toNat))
  | .tuple vs => return .fixed vs
  | .keys a =>
    match h.dict? (.ref a) with
    | some es => return .fixed (es.map (·.1))
    | none => Run.host .type
  | .ref a =>
    match h.list? (.ref a), h.dict? (.ref a) with
    | some _, _ => return .list a
    | none, some es => return .fixed (es.map (·.1))
    | none, none => Run.host .type
  | _ => Run.host .type

/-- The items of a value, all at once. -/
def items (v : Value) : Run (List Value) := do
  return (← source v).items (← get)

/-- How many items a list may gain while it is gone through. One that keeps ahead is never done with. -/
def growth : Nat :=
  2 ^ 60

/-- Goes through the items from the place `i` on, until there are no more or a step is the last. -/
def walk {α : Type} (s : Source) (step : α → Value → Run (ForInStep α)) : Nat → Nat → α → Run α
  | 0, _, _ => Run.host .depth
  | fuel + 1, i, a => do
    match (s.items (← get))[i]? with
    | none => return a
    | some v =>
      match ← step a v with
      | .done a => return a
      | .yield a => walk s step fuel (i + 1) a

/-- Goes through a source from the place `i` on. -/
def eachFrom {α : Type} (i : Nat) (s : Source) (start : α) (step : α → Value → Run (ForInStep α)) : Run α := do
  walk s step (growth + ((s.items (← get)).length + 1)) i start

/-- Goes through a source. -/
def each {α : Type} (s : Source) (start : α) (step : α → Value → Run (ForInStep α)) : Run α :=
  eachFrom 0 s start step

/-! ## Filtering and projection -/

variable (p : Value → Run Bool) (f : Value → Run Value)

def filter (s : Source) : Run (List Value) := do
  let kept ← each s [] fun kept v => do
    if ← p v then return .yield (v :: kept) else return .yield kept
  return kept.reverse

def map (s : Source) : Run (List Value) := do
  let made ← each s [] fun made v => do return .yield ((← f v) :: made)
  return made.reverse

def flatMap (s : Source) : Run (List Value) :=
  each s [] fun made v => do return .yield (made ++ (← items (← f v)))

/-- The items before the first that `p` refuses. -/
def takeWhile (s : Source) : Run (List Value) := do
  let kept ← each s [] fun kept v => do
    if ← p v then return .yield (v :: kept) else return .done kept
  return kept.reverse

/-- The items from the first that `p` refuses. -/
def dropWhile : List Value → Run (List Value)
  | [] => return []
  | v :: vs => do
    if ← p v then dropWhile vs else return v :: vs

/-! ## Elements -/

def first (s : Source) : Run Value := do
  let found ← each s none fun _ v => do
    if ← p v then return .done (some v) else return .yield none
  match found with
  | some v => return v
  | none => throw .noMatch

def last (s : Source) : Run Value := do
  match (← filter p s).getLast? with
  | some v => return v
  | none => throw .noMatch

def any (s : Source) : Run Bool :=
  each s false fun _ v => do
    if ← p v then return .done true else return .yield false

def all (s : Source) : Run Bool :=
  each s true fun _ v => do
    if ← p v then return .yield true else return .done false

def count (s : Source) : Run Nat :=
  each s 0 fun n v => do
    if ← p v then return .yield (n + 1) else return .yield n

/-- Is a value equal to one of the items? -/
def contains (h : Heap) (w : Value) : List Value → Except Fault Bool
  | [] => .ok false
  | v :: vs => do if ← h.equal v w then return true else contains h w vs

/-! ## Keys -/

/-- Refuses a value that cannot be a key. -/
def requireKey (v : Value) : Run Unit := do
  if !(← get).isKey v then Run.host .type

/-- The items without those that are the same key as an earlier one. -/
def distinctFrom (seen : List Value) : List Value → Run (List Value)
  | [] => return []
  | v :: vs => do
    requireKey v
    if seen.any v.sameKey then distinctFrom seen vs
    else return v :: (← distinctFrom (v :: seen) vs)

def distinct (vs : List Value) : Run (List Value) :=
  distinctFrom [] vs

/-- Adds an item to the group of its key, which is new when there is none. -/
def addTo (key item : Value) : List (Value × List Value) → List (Value × List Value)
  | [] => [(key, [item])]
  | (k, group) :: rest =>
    if k.sameKey key then (k, group ++ [item]) :: rest else (k, group) :: addTo key item rest

/-- The items by their keys, keys and items in order of appearance. -/
def groupBy (s : Source) : Run (List (Value × List Value)) :=
  each s [] fun groups v => do
    let key ← f v
    requireKey key
    return .yield (addTo key v groups)

/-- The items under their keys, which have to be distinct. -/
def indexBy (s : Source) : Run (List (Value × Value)) :=
  each s [] fun entries v => do
    let key ← f v
    requireKey key
    if (Heap.lookup? entries key).isSome then
      match (← get).describe key with
      | some shown => throw (.duplicateKey shown)
      | none => Run.host .value
    else return .yield (entries ++ [(key, v)])

/-! ## Sorting -/

/-- An item behind its key. -/
abbrev Keyed := Value × Value

/-- The place of a key among sorted items, behind all that it is not less than; found by
halving the items between `low` and `high`. -/
def placeOf (less : Value → Value → Except Fault Bool) (sorted : Array Keyed) (key : Value) :
    Nat → Nat → Nat → Except Fault Nat
  | 0, low, _ => .ok low
  | fuel + 1, low, high => do
    if low < high then
      let middle := low + (high - low) / 2
      match sorted[middle]? with
      | some e =>
        if ← less key e.1 then placeOf less sorted key fuel low middle
        else placeOf less sorted key fuel (middle + 1) high
      | none => return low
    else return low

/-- Puts an item at its place among sorted items. -/
def insertSorted (less : Value → Value → Except Fault Bool) (sorted : List Keyed) (e : Keyed) :
    Except Fault (List Keyed) := do
  let i ← placeOf less sorted.toArray e.1 sorted.length 0 sorted.length
  return sorted.take i ++ e :: sorted.drop i

/-- The items up to the first step that goes the other way: in reverse order while every item is
less than the one before, or while none is. -/
def leadingRun (less : Value → Value → Except Fault Bool) (descending : Bool) :
    List Keyed → Keyed → List Keyed → Except Fault (List Keyed × List Keyed)
  | run, e, [] => .ok (e :: run, [])
  | run, e, x :: xs => do
    if (← less x.1 e.1) = descending then leadingRun less descending (e :: run) x xs
    else return (e :: run, x :: xs)

/-- Stable sorting: a sorted run at the start, into which the other items are inserted. -/
def sort (less : Value → Value → Except Fault Bool) : List Keyed → Except Fault (List Keyed)
  | [] => .ok []
  | [e] => .ok [e]
  | e :: x :: xs => do
    let descending ← less x.1 e.1
    let (run, rest) ← leadingRun less descending [] e (x :: xs)
    rest.foldlM (insertSorted less) (if descending then run else run.reverse)

/-- Items with their keys, the keys computed in order. -/
def keyed (vs : List Value) : Run (List Keyed) := do
  return (← map f (.fixed vs)).zip vs

def orderBy (vs : List Value) : Run (List Value) := do
  let es ← keyed f vs
  return (← Run.ofResult (sort (← get).less es)).map (·.2)

/-- Sorting backwards keeps the order of items with equal keys. -/
def orderByDescending (vs : List Value) : Run (List Value) := do
  let es ← keyed f vs
  return (← Run.ofResult (sort (← get).less es.reverse)).reverse.map (·.2)

/-! ## Aggregation -/

/-- The sum of numbers, from zero. -/
def sum (vs : List Value) : Except Fault Value :=
  vs.foldlM (fun total v => Arithmetic.onNumbers Number.add total v) (.int 0)

/-- The first item that no later one is before, where `before` compares a later item with the
best so far. -/
def best (before : Value → Value → Run Bool) : List Value → Run Value
  | [] => Run.host .value
  | v :: vs => vs.foldlM (fun top w => do if ← before w top then return w else return top) v

/-- Combines the items from the place `i` on, from left to right. -/
def foldFrom (i : Nat) (step : Value → Value → Run Value) (start : Value) (s : Source) : Run Value :=
  eachFrom i s start fun total v => do return .yield (← step total v)

/-! ## Arguments -/

/-- An integer that counts or selects. -/
def index (v : Value) : Run Int :=
  match v with
  | .bool b => return b.toNat
  | .int n | .fixed _ n => return n
  | _ => Run.host .type

/-- How many items to take or skip; less than zero counts as zero. -/
def amount (v : Value) : Run Nat := do
  if ← Run.ordered .lessThan v (.int 0) then return 0
  return (← index v).toNat

/-- An item by its place, counted from the end when negative. -/
def elementAt (vs : List Value) (i : Int) : Run Value :=
  let i := if i < 0 then i + vs.length else i
  match if i < 0 then none else vs[i.toNat]? with
  | some v => return v
  | none => Run.host .index

/-- A count that must not be negative. -/
def nonNegative (v : Value) : Run Unit := do
  if ← Run.ordered .lessThan v (.int 0) then throw .negativeCount

/-- The integers from `start` on, as many as `count`. -/
def range (start count : Value) : Run (List Value) := do
  nonNegative count
  let stop ← Run.operate (.arithmetic .add) .object start count
  let low ← index start
  let high ← index stop
  return (List.range (high - low).toNat).map fun (i : Nat) => .int (low + i)

variable (apply : Apply)

/-- A function argument as a test. -/
def test (g : Value) : Value → Run Bool := fun v => do
  Run.isTrue (← apply g [v])

def call (g : Value) : Value → Run Value := fun v => apply g [v]

def always : Value → Run Bool := fun _ => return true

/-- An optional argument; none is as good as absent. -/
def optional : List Value → Option Value
  | [.none] | [] => none
  | v :: _ => some v

/-- The test of an optional argument. -/
def optionalTest (args : List Value) : Value → Run Bool :=
  match optional args with
  | some g => test apply g
  | none => always

/-- The items, mapped by an optional argument. -/
def selected (s : Source) (args : List Value) : Run (List Value) := do
  match optional args with
  | some g => map (call apply g) s
  | none => return s.items (← get)

/-- What a function makes of pairs of items, as long as both sources have one. -/
def zipWith (g : Value) (s t : Source) : Run (List Value) := do
  let made ← each s [] fun made v => do
    match (t.items (← get))[made.length]? with
    | some w => return .yield ((← apply g [v, w]) :: made)
    | none => return .done made
  return made.reverse

/-- Pairs of items as tuples, or combined by an optional argument. -/
def zip (s t : Source) (args : List Value) : Run (List Value) := do
  match optional args with
  | some g => zipWith apply g s t
  | none =>
    let h ← get
    return ((s.items h).zip (t.items h)).map fun (v, w) => .tuple [v, w]

/-- The result of an aggregation, passed through an optional argument. -/
def finished (v : Value) (args : List Value) : Run Value :=
  match optional args with
  | some g => apply g [v]
  | none => return v

/-- Aggregation with a seed, or with the first item as the seed when there is no function
besides it. -/
def aggregate (s : Source) (seedOrStep : Value) (step : Option Value) (rest : List Value) : Run Value := do
  match step with
  | some g => finished apply (← foldFrom 0 (fun v w => apply g [v, w]) seedOrStep s) rest
  | none =>
    match (s.items (← get)).head? with
    | none => throw .noElements
    | some v => finished apply (← foldFrom 1 (fun v w => apply seedOrStep [v, w]) v s) rest

/-! ## Operators -/

/-- What an operator does with its arguments. -/
abbrev Operator := List Value → Run Value

/-- An operator of one argument and at most `more` others. -/
def oneAnd (more : Nat) (run : Value → List Value → Run Value) : Operator
  | v :: rest => if rest.length > more then Run.host .type else run v rest
  | [] => Run.host .type

/-- An operator of two arguments and at most `more` others. -/
def twoAnd (more : Nat) (run : Value → Value → List Value → Run Value) : Operator
  | v :: w :: rest => if rest.length > more then Run.host .type else run v w rest
  | _ => Run.host .type

def one (run : Value → Run Value) : Operator :=
  oneAnd 0 fun v _ => run v

def two (run : Value → Value → Run Value) : Operator :=
  twoAnd 0 fun v w _ => run v w

/-- Runs the operator that a table holds under a name. -/
def runIn (table : List (String × Operator)) (name : String) (args : List Value) : Run Value :=
  match table.lookup name with
  | some operator => operator args
  | none => Run.host .type

/-- Operators that give some items of a source, or what a function makes of them. -/
def projections : List (String × Operator) :=
  [("where", two fun v g => do Run.newList (← filter (test apply g) (← source v))),
   ("select", two fun v g => do Run.newList (← map (call apply g) (← source v))),
   ("select_many", two fun v g => do Run.newList (← flatMap (call apply g) (← source v))),
   ("take", two fun v n => do
      let vs ← items v
      Run.newList (vs.take (← amount n))),
   ("skip", two fun v n => do
      let vs ← items v
      Run.newList (vs.drop (← amount n))),
   ("take_while", two fun v g => do Run.newList (← takeWhile (test apply g) (← source v))),
   ("skip_while", two fun v g => do Run.newList (← dropWhile (test apply g) (← items v)))]

/-- Operators that give the items of sources in another arrangement. -/
def arrangements : List (String × Operator) :=
  [("distinct", one fun v => do Run.newList (← distinct (← items v))),
   ("reverse", one fun v => do Run.newList (← items v).reverse),
   ("concat", two fun v w => do
      let vs ← items v
      Run.newList (vs ++ (← items w))),
   ("order_by", two fun v g => do Run.newList (← orderBy (call apply g) (← items v))),
   ("order_by_descending", two fun v g => do Run.newList (← orderByDescending (call apply g) (← items v))),
   ("group_by", two fun v g => do
      let groups ← groupBy (call apply g) (← source v)
      Run.newDict (← groups.mapM fun (k, vs) => do return (k, ← Run.newList vs))),
   ("to_dict", two fun v g => do Run.newDict (← indexBy (call apply g) (← source v))),
   ("to_list", one fun v => do Run.newList (← items v)),
   ("zip", twoAnd 1 fun v w rest => do
      let s ← source v
      Run.newList (← zip apply s (← source w) rest))]

/-- Operators that give one item, or tell whether there is one. -/
def elements : List (String × Operator) :=
  [("first", oneAnd 1 fun v rest => do first (optionalTest apply rest) (← source v)),
   ("last", oneAnd 1 fun v rest => do last (optionalTest apply rest) (← source v)),
   ("element_at", two fun v i => do
      let vs ← items v
      elementAt vs (← index i)),
   ("any", oneAnd 1 fun v rest => do return .bool (← any (optionalTest apply rest) (← source v))),
   ("all", two fun v g => do return .bool (← all (test apply g) (← source v))),
   ("contains", two fun v w => do
      let vs ← items v
      return .bool (← Run.ofResult (contains (← get) w vs))),
   ("sequence_equal", two fun v w => do
      let vs ← items v
      let ws ← items w
      if vs.length ≠ ws.length then return .bool false
      return .bool (← Run.ofResult (Value.equalAll (← get).equal vs ws)))]

/-- Operators that combine all items of a source. -/
def aggregations : List (String × Operator) :=
  [("count", oneAnd 1 fun v rest => do return .int (← count (optionalTest apply rest) (← source v))),
   ("sum", oneAnd 1 fun v rest => do Run.ofResult (sum (← selected apply (← source v) rest))),
   ("average", one fun v => do
      let vs ← items v
      if vs.isEmpty then throw .noElements
      Run.ofResult do Arithmetic.onNumbers Number.div (← sum vs) (.int vs.length)),
   ("min", oneAnd 1 fun v rest => do best (Run.ordered .lessThan) (← selected apply (← source v) rest)),
   ("max", oneAnd 1 fun v rest => do best (Run.ordered .greaterThan) (← selected apply (← source v) rest)),
   ("aggregate", twoAnd 2 fun v g rest => do
      aggregate apply (← source v) g (optional (rest.take 1)) (rest.drop 1))]

/-- Operators that give items without a source. -/
def generators : List (String × Operator) :=
  [("range", two fun start n => do Run.newList (← range start n)),
   ("repeat", two fun v n => do
      nonNegative n
      Run.newList (List.replicate (← index n).toNat v)),
   ("empty", fun args => if args.isEmpty then Run.newList [] else Run.host .type)]

def operators : List (String × Operator) :=
  projections apply ++ arrangements apply ++ elements apply ++ aggregations apply ++ generators

/-- Runs the operator of a name on its arguments. -/
def run : String → List Value → Run Value :=
  runIn (operators apply)

end ExprTree.Query
