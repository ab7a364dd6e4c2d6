import Catena.Fault

/-!
# Values

Everything a program computes with is a value, and everything it is made of
after reading is one too: program nodes and stack values share one type.

* An integer has no bound. A boolean is no integer.
* A symbol is a name. Whether it is a word to run, a numeral or plain data is
  decided when it is evaluated.
* A quotation is a sequence of values in program order.
* A mapping is empty, or holds exactly one key with its value.

Values are copied, compared and written by descending into them, and every
descent works under a nesting limit: each level takes some units of it, as many
as the descent makes calls for one level. The thresholds that follow from this
(`copyable`, `sameWithin`, `alikeWithin`, `obstacle?`, `inspectObstacle?`) are an
idealisation. They charge a descent for its own levels only, and nothing for the
calls of the interpreter that are under way when it begins, or for what the last
call needs beneath it. A host that counts these as well gives up a few units
earlier, so at the very boundary the thresholds are off by that constant.
-/

set_option autoImplicit false

namespace Catena

/-- A value of the language, and a node of a program. -/
inductive Value where
  | integer (n : Int)
  | boolean (b : Bool)
  | symbol (name : String)
  | quotation (items : List Value)
  | emptyMapping
  | mapping (key value : Value)
  deriving Repr

instance : Inhabited Value :=
  ⟨.emptyMapping⟩

namespace Value

/-- Induction over values: a statement holds of all values if it holds of a
quotation whenever it holds of each of its items, and of a mapping whenever it
holds of its key and its value. -/
@[elab_as_elim]
theorem induct {motive : Value → Prop}
    (integer : ∀ n, motive (.integer n))
    (boolean : ∀ b, motive (.boolean b))
    (symbol : ∀ name, motive (.symbol name))
    (quotation : ∀ items, (∀ v ∈ items, motive v) → motive (.quotation items))
    (emptyMapping : motive .emptyMapping)
    (mapping : ∀ key value, motive key → motive value → motive (.mapping key value)) :
    ∀ v, motive v
  | .integer n => integer n
  | .boolean b => boolean b
  | .symbol name => symbol name
  | .quotation items => quotation items fun v _ =>
      induct integer boolean symbol quotation emptyMapping mapping v
  | .emptyMapping => emptyMapping
  | .mapping key value =>
      mapping key value (induct integer boolean symbol quotation emptyMapping mapping key)
        (induct integer boolean symbol quotation emptyMapping mapping value)

/-! ## Equality -/

mutual
/-- Whether two values are equal. -/
def eqb : Value → Value → Bool
  | .integer m, .integer n => m == n
  | .boolean a, .boolean b => a == b
  | .symbol a, .symbol b => a == b
  | .quotation xs, .quotation ys => eqbList xs ys
  | .emptyMapping, .emptyMapping => true
  | .mapping k v, .mapping k' v' => eqb k k' && eqb v v'
  | _, _ => false
/-- Whether two lists of values are equal. -/
def eqbList : List Value → List Value → Bool
  | [], [] => true
  | x :: xs, y :: ys => eqb x y && eqbList xs ys
  | _, _ => false
end

mutual
/-- The decision procedure is exact. -/
theorem eqb_iff : ∀ a b : Value, eqb a b = true ↔ a = b
  | .integer _, b => by cases b <;> simp [eqb]
  | .boolean _, b => by cases b <;> simp [eqb]
  | .symbol _, b => by cases b <;> simp [eqb]
  | .quotation xs, b => by cases b <;> simp [eqb, eqbList_iff xs]
  | .emptyMapping, b => by cases b <;> simp [eqb]
  | .mapping k v, b => by cases b <;> simp [eqb, eqb_iff k, eqb_iff v]
/-- The decision procedure is exact on lists. -/
theorem eqbList_iff : ∀ xs ys : List Value, eqbList xs ys = true ↔ xs = ys
  | [], ys => by cases ys <;> simp [eqbList]
  | x :: xs, ys => by cases ys <;> simp [eqbList, eqb_iff x, eqbList_iff xs]
end

instance : DecidableEq Value := fun a b =>
  decidable_of_iff (eqb a b = true) (eqb_iff a b)

/-! ## Kinds -/

/-- The integer that a value is, if it is one. -/
def integer? : Value → Option Int
  | .integer n => some n
  | _ => none

/-- Whether a value is an integer. -/
def isInteger (v : Value) : Bool :=
  v.integer?.isSome

/-- Whether a value is a quotation. -/
def isQuotation : Value → Bool
  | .quotation _ => true
  | _ => false

/-- The name that a value offers to a definition: a symbol offers its own, and a
quotation of one symbol offers that symbol's. The second form lets a program
name a word that is already bound without running it. -/
def name? : Value → Option String
  | .symbol name => some name
  | .quotation [.symbol name] => some name
  | _ => none

/-- Whether a value chooses the first branch of a conditional. Only `false` and
zero do not. -/
def countsAsTrue : Value → Bool
  | .boolean b => b
  | .integer n => n != 0
  | _ => true

/-- A mapping from an optional key and an optional value: both or neither. -/
def mapping? : Option Value → Option Value → Except Fault Value
  | none, none => .ok .emptyMapping
  | some key, some value => .ok (.mapping key value)
  | _, _ => .error .halfMapping

/-! ## Numerals -/

/-- Whether a name is one or more ASCII digits. -/
def isNumeral (name : String) : Bool :=
  !name.isEmpty && name.toList.all Text.isAsciiDigit

/-- The integer that a numeral denotes. Its length counts every character, so
leading zeros can make a small integer unreadable. -/
def readNumeral (name : String) : Except Fault Int :=
  let digits := name.toList
  if digits.length ≤ digitLimit then .ok (Int.ofNat (Text.natOfDigits digits))
  else .error (.numeralTooLong digits.length)

/-! ## Nesting -/

mutual
/-- The number of groups around the innermost part of a value. An empty group
counts as one. -/
def depth : Value → Nat
  | .quotation items => depthList items + 1
  | .emptyMapping => 1
  | .mapping key value => max key.depth value.depth + 1
  | .integer _ => 0
  | .boolean _ => 0
  | .symbol _ => 0
/-- The greatest nesting among the values of a list. -/
def depthList : List Value → Nat
  | [] => 0
  | v :: vs => max v.depth (depthList vs)
end

@[simp] theorem depth_quotation (items : List Value) :
    (Value.quotation items).depth = depthList items + 1 := by
  simp [depth]

@[simp] theorem depth_mapping (key value : Value) :
    (Value.mapping key value).depth = max key.depth value.depth + 1 := by
  simp [depth]

@[simp] theorem depthList_nil : depthList [] = 0 := by
  simp [depthList]

@[simp] theorem depthList_cons (v : Value) (vs : List Value) :
    depthList (v :: vs) = max v.depth (depthList vs) := by
  simp [depthList]

/-- Copying a value takes two units of the nesting limit for each level. -/
def copyable (limit : Nat) (v : Value) : Bool :=
  2 * v.depth ≤ limit

/-! ## Comparison

Two comparisons are in use.

* `same` is the comparison of the language: two values are the same when they
  are of one kind and agree throughout.
* `alike` is the coarser comparison of the host, which takes a boolean for the
  integer one or zero, at every depth.

Both descend into the two values side by side, from left to right, and stop at
the first difference, so a difference found early hides what lies deeper. One
level of a quotation takes three units of the limit in `same` and one in `alike`;
one level of a mapping takes one unit in `same` and four in `alike`.

Two values may have a mapping in common, and not just two equal ones. `same`
recognises such a mapping where it meets it on both sides and does not descend
into it, so it may be nested more deeply than the limit allows. -/

/-! ### Exact comparison -/

mutual
/-- Whether two values are the same, with `room` units of nesting left. `shared`
says that equal mappings in the same place are one mapping. -/
def sameWithin (shared : Bool) (room : Nat) : Value → Value → Except Fault Bool
  | .integer m, .integer n => .ok (m == n)
  | .boolean a, .boolean b => .ok (a == b)
  | .symbol a, .symbol b => .ok (a == b)
  | .quotation xs, .quotation ys =>
      if xs.length ≠ ys.length then .ok false
      else if room < 3 then .error .nestingTooDeep
      else sameList shared (room - 3) xs ys
  | .emptyMapping, .emptyMapping => .ok true
  | .mapping k v, .mapping k' v' =>
      if shared ∧ k = k' ∧ v = v' then .ok true
      else if room < 1 then .error .nestingTooDeep
      else
        match sameWithin shared (room - 1) k k' with
        | .ok true => sameWithin shared (room - 1) v v'
        | answer => answer
  | _, _ => .ok false
/-- Whether two lists hold the same values in the same order. -/
def sameList (shared : Bool) (room : Nat) : List Value → List Value → Except Fault Bool
  | [], [] => .ok true
  | x :: xs, y :: ys =>
      match sameWithin shared room x y with
      | .ok true => sameList shared room xs ys
      | answer => answer
  | _, _ => .ok false
end

/-! ### Comparison up to booleans -/

/-- The integer that the host takes a boolean for. -/
def ofBoolean (b : Bool) : Int :=
  if b then 1 else 0

mutual
/-- Whether two values are alike, with `room` units of nesting left. -/
def alikeWithin (room : Nat) : Value → Value → Except Fault Bool
  | .integer m, .integer n => .ok (m == n)
  | .boolean a, .boolean b => .ok (a == b)
  | .integer n, .boolean b => .ok (n == ofBoolean b)
  | .boolean b, .integer n => .ok (n == ofBoolean b)
  | .symbol a, .symbol b => .ok (a == b)
  | .quotation xs, .quotation ys =>
      if xs.length ≠ ys.length then .ok false
      else if room < 1 then .error .nestingTooDeep
      else alikeList (room - 1) xs ys
  | .emptyMapping, .emptyMapping => .ok true
  | .mapping k v, .mapping k' v' =>
      if room < 4 then .error .nestingTooDeep
      else
        match alikeWithin (room - 4) k k' with
        | .ok true => alikeWithin (room - 4) v v'
        | answer => answer
  | _, _ => .ok false
/-- Whether two lists hold alike values in the same order. -/
def alikeList (room : Nat) : List Value → List Value → Except Fault Bool
  | [], [] => .ok true
  | x :: xs, y :: ys =>
      match alikeWithin room x y with
      | .ok true => alikeList room xs ys
      | answer => answer
  | _, _ => .ok false
end

/-! ## Program text

A value is written as the tokens a reader would need to read it back: a symbol
is its name, an integer its decimal digits, and a group its elements between its
brackets. The text of a value is its tokens joined by single spaces, so an empty
quotation is written `[ ]`.

Writing can fail in two ways, and the tokens come in the order in which the
failures are met: an integer may be too long to be written, and the value may be
nested more deeply than the limit allows. Each level takes two units of it. -/

/-! ### Tokens -/

mutual
/-- Puts the tokens of a value in front of `rest`. -/
def tokensOnto : Value → List String → List String
  | .integer n, rest => toString n :: rest
  | .boolean b, rest => (if b then "true" else "false") :: rest
  | .symbol name, rest => name :: rest
  | .quotation items, rest => "[" :: tokensListOnto items ("]" :: rest)
  | .emptyMapping, rest => "\x7b" :: "\x7d" :: rest
  | .mapping key value, rest => "\x7b" :: key.tokensOnto (value.tokensOnto ("\x7d" :: rest))
/-- Puts the tokens of a list of values in front of `rest`. -/
def tokensListOnto : List Value → List String → List String
  | [], rest => rest
  | v :: vs, rest => v.tokensOnto (tokensListOnto vs rest)
end

/-- The tokens of a value. -/
def tokens (v : Value) : List String :=
  v.tokensOnto []

/-! ### What stops the writing -/

mutual
/-- The first obstacle to writing a value with `room` units of nesting left. -/
def obstacle? (room : Nat) : Value → Option Fault
  | .integer n => if tooLongToWrite n then some .integerTooLong else none
  | .quotation items => if room < 2 then some .nestingTooDeep else obstacleList? (room - 2) items
  | .emptyMapping => if room < 2 then some .nestingTooDeep else none
  | .mapping key value =>
      if room < 2 then some .nestingTooDeep
      else (obstacle? (room - 2) key).or (obstacle? (room - 2) value)
  | .boolean _ => none
  | .symbol _ => none
/-- The first obstacle to writing a list of values. -/
def obstacleList? (room : Nat) : List Value → Option Fault
  | [] => none
  | v :: vs => (obstacle? room v).or (obstacleList? room vs)
end

/-- The text of a value, under a nesting limit. -/
def render (limit : Nat) (v : Value) : Except Fault String :=
  match v.obstacle? limit with
  | some fault => .error fault
  | none => .ok (" ".intercalate v.tokens)

/-! ## Diagnostic form

Beside program text, values have a form in which no two of them look alike: a
symbol is shown by its quoted name, so `1` and `Symbol('1')` differ. It is used
where a host asks what exactly a value is. A quotation takes one unit of the
nesting limit for each level and a mapping two. -/

mutual
/-- Puts the pieces of a value's diagnostic form in front of `rest`. -/
def piecesOnto : Value → List String → List String
  | .integer n, rest => toString n :: rest
  | .boolean b, rest => (if b then "True" else "False") :: rest
  | .symbol name, rest => "Symbol(" :: Text.quoted name :: ")" :: rest
  | .quotation items, rest => "[" :: piecesListOnto items ("]" :: rest)
  | .emptyMapping, rest => "Mapping()" :: rest
  | .mapping key value, rest =>
      "Mapping(" :: key.piecesOnto (", " :: value.piecesOnto (")" :: rest))
/-- Puts the pieces of a list of values, set apart by commas, in front of
`rest`. -/
def piecesListOnto : List Value → List String → List String
  | [], rest => rest
  | [v], rest => v.piecesOnto rest
  | v :: w :: vs, rest => v.piecesOnto (", " :: piecesListOnto (w :: vs) rest)
end

mutual
/-- The first obstacle to showing a value with `room` units of nesting left. -/
def inspectObstacle? (room : Nat) : Value → Option Fault
  | .integer n => if tooLongToWrite n then some .integerTooLong else none
  | .quotation items =>
      if room < 1 then some .nestingTooDeep else inspectObstacleList? (room - 1) items
  | .emptyMapping => if room < 2 then some .nestingTooDeep else none
  | .mapping key value =>
      if room < 2 then some .nestingTooDeep
      else (inspectObstacle? (room - 2) key).or (inspectObstacle? (room - 2) value)
  | .boolean _ => none
  | .symbol _ => none
/-- The first obstacle to showing a list of values. -/
def inspectObstacleList? (room : Nat) : List Value → Option Fault
  | [] => none
  | v :: vs => (inspectObstacle? room v).or (inspectObstacleList? room vs)
end

/-- The diagnostic form of a value, under a nesting limit. -/
def inspect (limit : Nat) (v : Value) : Except Fault String :=
  match v.inspectObstacle? limit with
  | some fault => .error fault
  | none => .ok (String.join (v.piecesOnto []))

end Value

end Catena
