import Catena.Log

/-!
# Dictionaries

A dictionary binds names to operations. Bindings are listed in the order in
which their names first appeared; binding a name again replaces its operation
and keeps its place. No binding is ever removed.

Words look names up while a program runs, so a word may mention itself in its
body before it is bound.

Hosts may use any value as a key. A symbol is looked up by its name, an integer
or a boolean is never found, and a value that holds others cannot be a key.
-/

set_option autoImplicit false

namespace Catena

/-- Bindings of names, in the order in which the names first appeared. -/
structure Dictionary where
  bindings : List (String × Operation)
  deriving DecidableEq, Repr

namespace Dictionary

/-- The dictionary without bindings. -/
def empty : Dictionary :=
  ⟨[]⟩

/-- The number of names bound. -/
def size (d : Dictionary) : Nat :=
  d.bindings.length

/-- The names in the order in which they first appeared. -/
def names (d : Dictionary) : List String :=
  d.bindings.map (·.1)

/-- The names in the order of their code points. -/
def sortedNames (d : Dictionary) : List String :=
  d.names.mergeSort fun a b => a ≤ b

/-- The operation of a name in a list of bindings. -/
def find? (name : String) : List (String × Operation) → Option Operation
  | [] => none
  | (bound, op) :: rest => if bound = name then some op else find? name rest

/-- The operation that a name is bound to. -/
def get? (d : Dictionary) (name : String) : Option Operation :=
  find? name d.bindings

/-- Whether a name is bound. -/
def contains (d : Dictionary) (name : String) : Bool :=
  (d.get? name).isSome

/-- Binds a name in a list of bindings: in its place if it is there, at the end
otherwise. -/
def put (name : String) (op : Operation) : List (String × Operation) → List (String × Operation)
  | [] => [(name, op)]
  | (bound, old) :: rest =>
      if bound = name then (bound, op) :: rest else (bound, old) :: put name op rest

/-- A name that has just been bound is found. -/
@[simp] theorem find?_put_self (name : String) (op : Operation)
    (bindings : List (String × Operation)) : find? name (put name op bindings) = some op := by
  induction bindings with
  | nil => simp [put, find?]
  | cons binding rest ih =>
      obtain ⟨bound, old⟩ := binding
      by_cases h : bound = name <;> simp [put, find?, h, ih]

/-- Binding a name leaves the others as they are. -/
theorem find?_put_of_ne {name other : String} (h : other ≠ name) (op : Operation)
    (bindings : List (String × Operation)) :
    find? other (put name op bindings) = find? other bindings := by
  induction bindings with
  | nil => simp [put, find?, h.symm]
  | cons binding rest ih =>
      obtain ⟨bound, old⟩ := binding
      by_cases hb : bound = name
      · subst hb
        simp [put, find?, h.symm]
      · simp [put, find?, hb, ih]

/-- Binding a name keeps the order of the names; a new one comes last. -/
theorem names_put (name : String) (op : Operation) (bindings : List (String × Operation)) :
    (put name op bindings).map (·.1) =
      if name ∈ bindings.map (·.1) then bindings.map (·.1) else bindings.map (·.1) ++ [name] := by
  induction bindings with
  | nil => simp [put]
  | cons binding rest ih =>
      obtain ⟨bound, old⟩ := binding
      by_cases hb : bound = name
      · simp [put, hb]
      · have hn : ¬ name = bound := fun h => hb h.symm
        simp only [put, if_neg hb, List.map_cons, ih, List.mem_cons, hn, false_or]
        split <;> simp

/-- Binds a name, replacing what it was bound to. -/
def insert (d : Dictionary) (name : String) (op : Operation) : Dictionary :=
  ⟨put name op d.bindings⟩

/-- Binds every built-in word to its own spelling. -/
def withBuiltins (d : Dictionary) : Dictionary :=
  Builtin.all.foldl (fun d b => d.insert b.word (.builtin b.word b)) d

/-- The dictionary of a fresh session. -/
def builtins : Dictionary :=
  withBuiltins empty

/-! ## Values as keys -/

/-- Looks a key up. -/
def lookup (d : Dictionary) : Value → Except Fault (Option Operation)
  | .symbol name => .ok (d.get? name)
  | .integer _ => .ok none
  | .boolean _ => .ok none
  | .quotation _ => .error (.unusableKey .quotation)
  | .emptyMapping => .error (.unusableKey .mapping)
  | .mapping _ _ => .error (.unusableKey .mapping)

end Dictionary

/-- The records of binding a name in a dictionary: one if it is bound already. -/
def Record.replacing (d : Dictionary) (name : String) : List Record :=
  if d.contains name then [redefining name] else []

/-! ## Changes from outside

A host may define words directly, one by one or many at once. Definitions given
together are collected first: of several with alike keys, the first fixes the
key and its place and the last fixes the operation. They are then made in order,
and the first name that is no symbol ends the series; the definitions before it
stay. Every binding that replaces another is logged. -/

namespace Dictionary

/-- The failure of a definition whose name is no symbol. -/
def refuse (limit : Nat) (name : Value) : Failure :=
  match name.inspect limit with
  | .error fault => .fault fault
  | .ok shown => .error (.unnameable shown)

/-- Adds a definition to a collection of definitions in which alike keys are
one: the key and its place are those of the first definition, the operation is
that of the last. -/
def collect (limit : Nat) (key : Value) (op : Operation) :
    List (Value × Operation) → Except Fault (List (Value × Operation))
  | [] => .ok [(key, op)]
  | (k, old) :: rest =>
      match Value.alikeWithin limit k key with
      | .error fault => .error fault
      | .ok true => .ok ((k, op) :: rest)
      | .ok false => (collect limit key op rest).map ((k, old) :: ·)

/-- Collects definitions whose keys may repeat. -/
def collectAll (limit : Nat) (definitions : List (Value × Operation)) :
    Except Fault (List (Value × Operation)) :=
  definitions.foldlM
    (fun collected definition =>
      match definition.1 with
      | .quotation _ => .error (.unusableKey .quotation)
      | .emptyMapping => .error (.unusableKey .mapping)
      | .mapping _ _ => .error (.unusableKey .mapping)
      | key => collect limit key definition.2 collected)
    []

/-- What a series of definitions leads to. -/
structure Change where
  dictionary : Dictionary
  failure : Option Failure
  log : List Record

/-- Makes definitions in order, up to the first that fails. -/
def defineEach (limit : Nat) (d : Dictionary) : List (Value × Operation) → Change
  | [] => ⟨d, none, []⟩
  | (key, op) :: rest =>
      match key with
      | .symbol name =>
          let change := defineEach limit (d.insert name op) rest
          { change with log := Record.replacing d name ++ change.log }
      | key => ⟨d, some (refuse limit key), []⟩

/-- Collects definitions, then makes them. -/
def defineAll (limit : Nat) (d : Dictionary) (definitions : List (Value × Operation)) : Change :=
  match collectAll limit definitions with
  | .error fault => ⟨d, some (.fault fault), []⟩
  | .ok collected => defineEach limit d collected

/-- Binds every built-in word anew. -/
def addBuiltins (limit : Nat) (d : Dictionary) : Change :=
  defineAll limit d (Builtin.all.map fun b => (.symbol b.word, .builtin b.word b))

end Dictionary

end Catena
