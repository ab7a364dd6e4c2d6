import Catena.Proofs.Value
import Catena.Proofs.Word.Failure

/-!
# What comparisons decide

Each of the two comparisons decides a question about its two values, or finds both of them too
deep for the limit.

* `sameWithin` decides whether the values are equal. Marks and shared mappings save it work and
  never change its answer. A level takes three units of the limit at most.
* `alikeWithin` decides whether the values are equal once every boolean in them, at every depth,
  is replaced by the integer that the host takes it for (`Value.numbered`). A level takes four
  units at most.

Both go through two values side by side, element after element, and both are judged by
`Decides`, which is closed under what the two descents do: a level costs something
(`Decides.level`), and an element that differs settles the matter (`Decides.andThen`).
-/

set_option autoImplicit false

namespace Catena

/-! ## Decisions under a limit -/

/-- What a comparison may come to that has `room` units left, at `cost` units a level, for two
sides of the depths `m` and `n`: it tells whether `p` holds, or both sides go too deep. -/
inductive Decides (p : Prop) (cost room m n : Nat) : Except Fault Bool → Prop
  | yes : p → Decides p cost room m n (.ok true)
  | no : ¬ p → Decides p cost room m n (.ok false)
  | tooDeep : room < cost * m → room < cost * n →
      Decides p cost room m n (.error .nestingTooDeep)

namespace Decides

variable {p q : Prop} {cost room m n m' n' : Nat} {result other : Except Fault Bool}

theorem ok_iff {answer : Bool} :
    Decides p cost room m n (.ok answer) ↔ (answer = true ↔ p) := by
  constructor
  · intro h
    cases h with
    | yes hp => exact iff_of_true rfl hp
    | no hp => exact iff_of_false Bool.false_ne_true hp
  · intro h
    cases answer with
    | true => exact .yes (h.1 rfl)
    | false =>
        apply Decides.no
        intro hp
        cases h.2 hp

theorem congr (h : Decides p cost room m n result) (hpq : p ↔ q) :
    Decides q cost room m n result := by
  cases h with
  | yes hp => exact .yes (hpq.1 hp)
  | no hp => exact .no (mt hpq.2 hp)
  | tooDeep hm hn => exact .tooDeep hm hn

/-- A question about two parts is decided part by part. The second one is looked at only if the
first holds. -/
theorem andThen :
    Decides p cost room m n result → Decides q cost room m' n' other →
      Decides (p ∧ q) cost room (max m m') (max n n')
        (match result with
          | .ok true => other
          | answer => answer) := by
  intro h h'
  have hleft : ∀ {k k'}, room < cost * k → room < cost * max k k' := fun hk =>
    Nat.lt_of_lt_of_le hk (Nat.mul_le_mul_left cost (Nat.le_max_left _ _))
  have hright : ∀ {k k'}, room < cost * k' → room < cost * max k k' := fun hk =>
    Nat.lt_of_lt_of_le hk (Nat.mul_le_mul_left cost (Nat.le_max_right _ _))
  cases h with
  | no hp => exact .no fun hpq => hp hpq.1
  | tooDeep hm hn => exact .tooDeep (hleft hm) (hleft hn)
  | yes hp =>
      cases h' with
      | yes hq => exact .yes ⟨hp, hq⟩
      | no hq => exact .no fun hpq => hq hpq.2
      | tooDeep hm hn => exact .tooDeep (hright hm) (hright hn)

/-- A level takes some units of the room, at most as many as a level may cost. -/
theorem level {units : Nat} (h : Decides p cost (room - units) m n result)
    (hunits : units ≤ cost) :
    Decides p cost room (m + 1) (n + 1)
      (if room < units then .error .nestingTooDeep else result) := by
  have hnext : ∀ k, room < units ∨ room - units < cost * k → room < cost * (k + 1) := by
    intro k hk
    rw [Nat.mul_succ]
    omega
  split
  · rename_i hroom
    exact .tooDeep (hnext m (Or.inl hroom)) (hnext n (Or.inl hroom))
  · cases h with
    | yes hp => exact .yes hp
    | no hp => exact .no hp
    | tooDeep hm hn => exact .tooDeep (hnext m (Or.inr hm)) (hnext n (Or.inr hn))

/-- A comparison that decides a question has the right answer, or the two sides go too deep. -/
theorem eq_or_tooDeep [Decidable p] (h : Decides p cost room m n result) :
    result = .ok (decide p) ∨
      result = .error .nestingTooDeep ∧ room < cost * m ∧ room < cost * n := by
  cases h with
  | yes hp => exact Or.inl (by rw [decide_eq_true hp])
  | no hp => exact Or.inl (by rw [decide_eq_false hp])
  | tooDeep hm hn => exact Or.inr ⟨rfl, hm, hn⟩

/-- With some amount of room, a comparison finds that what it decides holds. -/
theorem exists_ok_iff {compare : Nat → Except Fault Bool}
    (h : ∀ room, Decides p cost room m n (compare room)) :
    (∃ room, compare room = .ok true) ↔ p := by
  constructor
  · rintro ⟨room, hok⟩
    have hdecides := h room
    rw [hok, ok_iff] at hdecides
    exact hdecides.1 rfl
  · intro hp
    refine ⟨cost * m, ?_⟩
    have hdecides := h (cost * m)
    generalize compare (cost * m) = result at hdecides
    cases hdecides with
    | yes _ => rfl
    | no hnot => exact absurd hp hnot
    | tooDeep hroom _ => exact absurd hroom (Nat.lt_irrefl _)

end Decides

namespace Value

/-! ## Exact comparison -/

mutual
/-- The exact comparison decides whether two values are equal. -/
theorem decides_sameWithin (shared : Bool) : ∀ (room : Nat) (a b : Value),
    Decides (a = b) 3 room a.depth b.depth (sameWithin shared room a b)
  | room, .integer _, b => by cases b <;> simp [sameWithin, Decides.ok_iff]
  | room, .boolean _, b => by cases b <;> simp [sameWithin, Decides.ok_iff]
  | room, .symbol _, b => by cases b <;> simp [sameWithin, Decides.ok_iff]
  | room, .emptyMapping, b => by cases b <;> simp [sameWithin, Decides.ok_iff]
  | room, .quotation xs, b => by
      cases b with
      | quotation ys =>
          rw [sameWithin, depth_quotation, depth_quotation]
          split
          · rename_i hlength
            apply Decides.no
            intro h
            cases h
            exact hlength rfl
          · have hitems := decides_sameList shared (room - 3) xs ys
            exact (hitems.level (Nat.le_refl 3)).congr (by rw [Value.quotation.injEq])
      | integer _ | boolean _ | symbol _ | emptyMapping | mapping _ _ =>
          simp [sameWithin, Decides.ok_iff]
  | room, .mapping k v, b => by
      cases b with
      | mapping k' v' =>
          rw [sameWithin, depth_mapping, depth_mapping]
          split
          · -- a mapping that both sides have in common is not looked into
            rename_i hshared
            exact .yes (by rw [hshared.2.1, hshared.2.2])
          · have hparts := (decides_sameWithin shared (room - 1) k k').andThen
              (decides_sameWithin shared (room - 1) v v')
            exact (hparts.level (by decide)).congr (by rw [Value.mapping.injEq])
      | integer _ | boolean _ | symbol _ | emptyMapping | quotation _ =>
          simp [sameWithin, Decides.ok_iff]
/-- The exact comparison of two lists decides whether they are equal. -/
theorem decides_sameList (shared : Bool) : ∀ (room : Nat) (xs ys : List Value),
    Decides (xs = ys) 3 room (depthList xs) (depthList ys) (sameList shared room xs ys)
  | room, [], ys => by cases ys <;> simp [sameList, Decides.ok_iff]
  | room, x :: xs, [] => by simp [sameList, Decides.ok_iff]
  | room, x :: xs, y :: ys => by
      rw [sameList, depthList_cons, depthList_cons]
      have hparts := (decides_sameWithin shared room x y).andThen
        (decides_sameList shared room xs ys)
      exact hparts.congr (by rw [List.cons.injEq])
end

/-- A comparison finds two values to be the same. -/
def Same (a b : Value) : Prop :=
  ∃ shared room, sameWithin shared room a b = .ok true

/-- What is found to be the same is equal, and what is equal can be found to be the same. -/
theorem same_iff {a b : Value} : a.Same b ↔ a = b := by
  constructor
  · rintro ⟨shared, hfound⟩
    exact (Decides.exists_ok_iff fun room => decides_sameWithin shared room a b).1 hfound
  · intro h
    refine ⟨false, ?_⟩
    exact (Decides.exists_ok_iff fun room => decides_sameWithin false room a b).2 h

/-! ## Comparison up to booleans -/

mutual
/-- The value with the integer in place of each boolean that the host takes it for. -/
def numbered : Value → Value
  | .integer n => .integer n
  | .boolean b => .integer (ofBoolean b)
  | .symbol name => .symbol name
  | .quotation items => .quotation (numberedList items)
  | .emptyMapping => .emptyMapping
  | .mapping key value => .mapping key.numbered value.numbered
/-- The values of a list, each with integers in place of its booleans. -/
def numberedList : List Value → List Value
  | [] => []
  | v :: vs => v.numbered :: numberedList vs
end

theorem numberedList_eq_map (vs : List Value) : numberedList vs = vs.map numbered := by
  induction vs with
  | nil => rw [numberedList, List.map_nil]
  | cons v vs ih => rw [numberedList, ih, List.map_cons]

@[simp] theorem numbered_integer (n : Int) : (Value.integer n).numbered = .integer n := by
  rw [numbered]

@[simp] theorem numbered_boolean (b : Bool) :
    (Value.boolean b).numbered = .integer (ofBoolean b) := by
  rw [numbered]

@[simp] theorem numbered_symbol (name : String) : (Value.symbol name).numbered = .symbol name := by
  rw [numbered]

@[simp] theorem numbered_quotation (items : List Value) :
    (Value.quotation items).numbered = .quotation (items.map numbered) := by
  rw [numbered, numberedList_eq_map]

@[simp] theorem numbered_emptyMapping : Value.emptyMapping.numbered = .emptyMapping := by
  rw [numbered]

@[simp] theorem numbered_mapping (key value : Value) :
    (Value.mapping key value).numbered = .mapping key.numbered value.numbered := by
  rw [numbered]

/-- Different booleans are taken for different integers. -/
@[simp] theorem ofBoolean_inj {a b : Bool} : ofBoolean a = ofBoolean b ↔ a = b := by
  revert a b
  decide

mutual
/-- The comparison up to booleans decides whether two values are equal with integers in place of
their booleans. -/
theorem decides_alikeWithin : ∀ (room : Nat) (a b : Value),
    Decides (a.numbered = b.numbered) 4 room a.depth b.depth (alikeWithin room a b)
  | room, .integer _, b => by cases b <;> simp [alikeWithin, Decides.ok_iff]
  | room, .boolean t, b => by
      cases b with
      | integer n =>
          rw [alikeWithin, numbered_boolean, numbered_integer, Decides.ok_iff, beq_iff_eq,
            Value.integer.injEq]
          exact eq_comm
      | boolean _ | symbol _ | quotation _ | emptyMapping | mapping _ _ =>
          simp [alikeWithin, Decides.ok_iff]
  | room, .symbol _, b => by cases b <;> simp [alikeWithin, Decides.ok_iff]
  | room, .emptyMapping, b => by cases b <;> simp [alikeWithin, Decides.ok_iff]
  | room, .quotation xs, b => by
      cases b with
      | quotation ys =>
          rw [alikeWithin, depth_quotation, depth_quotation, numbered_quotation,
            numbered_quotation]
          split
          · rename_i hlength
            apply Decides.no
            intro h
            have hmap : xs.map numbered = ys.map numbered := Value.quotation.inj h
            exact hlength (by simpa using congrArg List.length hmap)
          · have hitems := decides_alikeList (room - 1) xs ys
            exact (hitems.level (by decide)).congr (by rw [Value.quotation.injEq])
      | integer _ | boolean _ | symbol _ | emptyMapping | mapping _ _ =>
          simp [alikeWithin, Decides.ok_iff]
  | room, .mapping k v, b => by
      cases b with
      | mapping k' v' =>
          rw [alikeWithin, depth_mapping, depth_mapping, numbered_mapping, numbered_mapping]
          have hparts := (decides_alikeWithin (room - 4) k k').andThen
            (decides_alikeWithin (room - 4) v v')
          exact (hparts.level (Nat.le_refl 4)).congr (by rw [Value.mapping.injEq])
      | integer _ | boolean _ | symbol _ | emptyMapping | quotation _ =>
          simp [alikeWithin, Decides.ok_iff]
/-- The comparison of two lists up to booleans decides the same about their values. -/
theorem decides_alikeList : ∀ (room : Nat) (xs ys : List Value),
    Decides (xs.map numbered = ys.map numbered) 4 room (depthList xs) (depthList ys)
      (alikeList room xs ys)
  | room, [], ys => by cases ys <;> simp [alikeList, Decides.ok_iff]
  | room, x :: xs, [] => by simp [alikeList, Decides.ok_iff]
  | room, x :: xs, y :: ys => by
      rw [alikeList, depthList_cons, depthList_cons, List.map_cons, List.map_cons]
      have hparts := (decides_alikeWithin room x y).andThen (decides_alikeList room xs ys)
      exact hparts.congr (by rw [List.cons.injEq])
end

/-- A comparison finds two values to be alike. -/
def Alike (a b : Value) : Prop :=
  ∃ room, alikeWithin room a b = .ok true

theorem alike_iff {a b : Value} : a.Alike b ↔ a.numbered = b.numbered :=
  Decides.exists_ok_iff fun room => decides_alikeWithin room a b

theorem numbered_nested (n : Nat) (v : Value) :
    (nested n v).numbered = nested n v.numbered := by
  induction n with
  | zero => rfl
  | succ n ih => rw [nested, nested, numbered_quotation, List.map_singleton, ih]

theorem nested_injective (n : Nat) : Function.Injective (nested n) := by
  induction n with
  | zero => exact fun _ _ h => h
  | succ n ih =>
      intro v w h
      simp only [nested, Value.quotation.injEq, List.cons.injEq, and_true] at h
      exact ih h

/-! ## The two comparisons in use -/

/-- The word `eq` pushes whether its operands are equal, or both go too deep and stay where they
are. -/
theorem run_equal (limit : Nat) (d : Dictionary) (marks : Nat) (top deeper : Entry)
    (rest : Stack) :
    Builtin.equal.run limit (top :: deeper :: rest) d marks =
        .done ⟨.plain (.boolean (decide (deeper.value = top.value))) :: rest, d, marks, []⟩ ∨
      Builtin.equal.run limit (top :: deeper :: rest) d marks =
          .failed (.fault .nestingTooDeep) (top :: deeper :: rest) ∧
        limit < 3 * deeper.value.depth ∧ limit < 3 * top.value.depth := by
  have hdecides := decides_sameWithin (deeper.shares top) limit deeper.value top.value
  rcases hdecides.eq_or_tooDeep with hok | ⟨herror, hdeep⟩
  · exact Or.inl (Builtin.run_of_does (.equal hok))
  · exact Or.inr ⟨Builtin.run_of_fails (.incomparable herror), hdeep⟩

/-- The host finds a stack alike to a list exactly when their values are alike in order, or both
go too deep. -/
theorem stack_alike (limit : Nat) (s : Stack) (values : List Value) :
    s.alike limit values = .ok (decide (s.toList.map numbered = values.map numbered)) ∨
      s.alike limit values = .error .nestingTooDeep ∧
        limit < 4 * (Value.quotation s.toList).depth ∧
        limit < 4 * (Value.quotation values).depth := by
  have hdecides := decides_alikeWithin limit (.quotation s.toList) (.quotation values)
  rw [numbered_quotation, numbered_quotation, Value.quotation.injEq] at hdecides
  exact hdecides.eq_or_tooDeep

theorem alike_of_same {a b : Value} (h : a.Same b) : a.Alike b := by
  rw [same_iff] at h
  rw [alike_iff, h]

theorem equivalence_same : Equivalence Same where
  refl _ := same_iff.2 rfl
  symm h := same_iff.2 (same_iff.1 h).symm
  trans h h' := same_iff.2 ((same_iff.1 h).trans (same_iff.1 h'))

/-- The comparison of the language decides whether two values are equal, and so does the word
`eq`, unless both values go too deep. Hence being found the same is an equivalence, and values
found the same are written the same. The comparison of the host, also of whole stacks, decides
whether the values are equal with integers in place of their booleans. What is the same is alike;
but at every depth a boolean is alike to an integer and not the same. -/
theorem comparisons_eq_decide :
    (∀ shared room (a b : Value),
      sameWithin shared room a b = .ok (decide (a = b)) ∨
        sameWithin shared room a b = .error .nestingTooDeep ∧
          room < 3 * a.depth ∧ room < 3 * b.depth) ∧
    (∀ limit d marks (top deeper : Entry) rest,
      Builtin.equal.run limit (top :: deeper :: rest) d marks =
          .done ⟨.plain (.boolean (decide (deeper.value = top.value))) :: rest, d, marks, []⟩ ∨
        Builtin.equal.run limit (top :: deeper :: rest) d marks =
            .failed (.fault .nestingTooDeep) (top :: deeper :: rest) ∧
          limit < 3 * deeper.value.depth ∧ limit < 3 * top.value.depth) ∧
    Equivalence Same ∧
    (∀ a b : Value, a.Same b → ∀ limit, a.render limit = b.render limit) ∧
    (∀ room (a b : Value),
      alikeWithin room a b = .ok (decide (a.numbered = b.numbered)) ∨
        alikeWithin room a b = .error .nestingTooDeep ∧
          room < 4 * a.depth ∧ room < 4 * b.depth) ∧
    (∀ limit (s : Stack) values,
      s.alike limit values = .ok (decide (s.toList.map numbered = values.map numbered)) ∨
        s.alike limit values = .error .nestingTooDeep ∧
          limit < 4 * (Value.quotation s.toList).depth ∧
          limit < 4 * (Value.quotation values).depth) ∧
    (∀ a b : Value, a.Same b → a.Alike b) ∧
    ∀ n t, (nested n (.boolean t)).Alike (nested n (.integer (ofBoolean t))) ∧
      ¬ (nested n (.boolean t)).Same (nested n (.integer (ofBoolean t))) := by
  refine ⟨?_, run_equal, equivalence_same, ?_, ?_, stack_alike, ?_, ?_⟩
  · intro shared room a b
    exact (decides_sameWithin shared room a b).eq_or_tooDeep
  · intro a b h limit
    rw [same_iff.1 h]
  · intro room a b
    exact (decides_alikeWithin room a b).eq_or_tooDeep
  · intro a b h
    exact alike_of_same h
  · intro n t
    constructor
    · rw [alike_iff, numbered_nested, numbered_nested, numbered_boolean, numbered_integer]
    · rw [same_iff]
      intro h
      cases nested_injective n h

/-- A quotation that holds a mapping with a boolean in it is the same as itself and alike to
itself. With the integer one in place of the boolean it is alike and no longer the same. -/
theorem comparisons_eq_decide_of_mapping :
    Same (.quotation [.mapping (.symbol "k") (.boolean true)])
        (.quotation [.mapping (.symbol "k") (.boolean true)]) ∧
      Alike (.quotation [.mapping (.symbol "k") (.boolean true)])
        (.quotation [.mapping (.symbol "k") (.boolean true)]) ∧
      sameWithin false 10 (.quotation [.mapping (.symbol "k") (.boolean true)])
        (.quotation [.mapping (.symbol "k") (.integer 1)]) = .ok false ∧
      alikeWithin 10 (.quotation [.mapping (.symbol "k") (.boolean true)])
        (.quotation [.mapping (.symbol "k") (.integer 1)]) = .ok true := by
  obtain ⟨hsame, -, -, -, halike, -, hcoarser, -⟩ := comparisons_eq_decide
  have hself : Same (.quotation [.mapping (.symbol "k") (.boolean true)])
      (.quotation [.mapping (.symbol "k") (.boolean true)]) := ⟨false, 10, rfl⟩
  refine ⟨hself, hcoarser _ _ hself, ?_, ?_⟩
  · exact (hsame false 10 _ _).resolve_right fun h => absurd h.2.1 (by decide)
  · exact (halike 10 _ _).resolve_right fun h => absurd h.2.1 (by decide)

end Value

end Catena
