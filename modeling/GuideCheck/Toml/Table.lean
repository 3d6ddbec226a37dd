import GuideCheck.Toml.Value

set_option autoImplicit false

/-! # Defining tables

A document defines its tables by headers and by dotted keys, and no table twice. A table that came
about on the way to another one may still get a header of its own; one that a dotted key made may
only be extended by dotted keys of the same place. Headers in double brackets add a table to an
array. -/

namespace GuideCheck.Toml

/-- What a key stands for while the document is read. -/
inductive Node
  | value (value : Toml)
  /-- a table: whether it has a header, whether a dotted key made it, and its entries -/
  | table (headed dotted : Bool) (entries : List (String × Node))
  /-- an array of tables: the entries of the last one, and of those before it, latest first -/
  | tables (last : List (String × Node)) (before : List (List (String × Node)))
deriving Inhabited

/-- A table that is being extended. -/
structure Body where
  headed : Bool
  dotted : Bool
  entries : List (String × Node)

namespace Body

/-- The table of a document before anything is read. -/
def empty : Body := ⟨true, false, []⟩

/-- The table with a node put under a key. -/
def put (body : Body) (key : String) (node : Node) : Body :=
  if (body.entries.lookup key).isSome then
    { body with entries := body.entries.map fun e => if e.1 = key then (key, node) else e }
  else { body with entries := body.entries ++ [(key, node)] }

/-- The table with a change made to the table at a path below it. Tables on the way are made where
    they are missing; in an array of tables the way leads into the last one. -/
def within (dotted : Bool) (change : Body → Option Body) : (path : List String) → Body → Option Body
  | [], body => change body
  | key :: rest, body =>
    match body.entries.lookup key with
    | none => do
      let inner ← within dotted change rest ⟨false, dotted, []⟩
      return body.put key (.table inner.headed inner.dotted inner.entries)
    | some (.table headed wasDotted entries) =>
      if dotted ∧ headed then none
      else do
        let inner ← within dotted change rest ⟨headed, wasDotted, entries⟩
        return body.put key (.table inner.headed inner.dotted inner.entries)
    | some (.tables last before) => do
      let inner ← within dotted change rest ⟨true, false, last⟩
      return body.put key (.tables inner.entries before)
    | some (.value _) => none

/-- The table with a value under a new key. -/
def addValue (dotted : Bool) (key : String) (value : Toml) (body : Body) : Option Body :=
  if body.dotted ≠ dotted ∨ (body.entries.lookup key).isSome then none
  else some (body.put key (.value value))

/-- The table with a value under a key of one or more parts. -/
def assign (key : List String) (value : Toml) (body : Body) : Option Body :=
  match key.getLast? with
  | none => none
  | some last =>
    let path := key.dropLast
    let dotted := !path.isEmpty
    within dotted (addValue dotted last value) path body

/-- The table with a header for one of its keys. -/
def addHeader (key : String) (body : Body) : Option Body :=
  match body.entries.lookup key with
  | none => some (body.put key (.table true false []))
  | some (.table false false entries) => some (body.put key (.table true false entries))
  | some _ => none

/-- The table with one more table in the array under one of its keys. -/
def addTable (key : String) (body : Body) : Option Body :=
  match body.entries.lookup key with
  | none => some (body.put key (.tables [] []))
  | some (.tables last before) => some (body.put key (.tables [] (last :: before)))
  | some _ => none

/-- The table after a header. -/
def header (add : String → Body → Option Body) (path : List String) (body : Body) : Option Body :=
  path.getLast?.bind fun last => within false (add last) path.dropLast body

end Body

mutual

def Node.toToml : Node → Toml
  | .value value => value
  | .table _ _ entries => .table (entriesToToml entries)
  | .tables last before => .array (bodiesToToml before [.table (entriesToToml last)])

/-- The values of the entries of a table. -/
def entriesToToml : List (String × Node) → List (String × Toml)
  | [] => []
  | (key, node) :: rest => (key, node.toToml) :: entriesToToml rest

/-- The tables of an array in order, given latest first, before those given as `after`. -/
def bodiesToToml : List (List (String × Node)) → (after : List Toml) → List Toml
  | [], after => after
  | entries :: rest, after => bodiesToToml rest (.table (entriesToToml entries) :: after)

end

/-- The table that was read. -/
def Body.toToml (body : Body) : Toml := .table (entriesToToml body.entries)

end GuideCheck.Toml
