import Catena.Proofs.Session.Exhaustion

/-!
# The nesting limit

The nesting limit cuts evaluations off and has no other effect (`Session.eval_of_nesting_le`).
Under a higher limit a word does what it does under a lower one, or the lower limit was
exhausted: a copy is made or not, and a comparison that comes to an answer comes to the same
answer with more room (`Value.sameWithin_of_le`). So two evaluations under different limits go
on in step, and they report the same, until the lower limit is exhausted.

Three kinds of step can exhaust a limit, because they copy or compare: doubling a quotation,
comparing two values, and running a defined word. A machine `descends` when it is about to make
such a step. An evaluation that never does goes on under any limit, however deep its values are
and however many frames are pending.
-/

set_option autoImplicit false

namespace Catena

/-! ## Comparisons with more room -/

namespace Value

mutual
/-- A comparison that has an answer has the same answer with more room. -/
theorem sameWithin_of_le (shared : Bool) {answer : Bool} : ∀ (room room' : Nat) (a b : Value),
    room ≤ room' → sameWithin shared room a b = .ok answer →
      sameWithin shared room' a b = .ok answer
  | room, room', .integer _, b, _, h => by cases b <;> simpa [sameWithin] using h
  | room, room', .boolean _, b, _, h => by cases b <;> simpa [sameWithin] using h
  | room, room', .symbol _, b, _, h => by cases b <;> simpa [sameWithin] using h
  | room, room', .emptyMapping, b, _, h => by cases b <;> simpa [sameWithin] using h
  | room, room', .quotation xs, b, hle, h => by
      cases b with
      | quotation ys =>
          rw [sameWithin] at h ⊢
          split at h
          · rename_i hlength
            rw [if_pos hlength]
            exact h
          · rename_i hlength
            rw [if_neg hlength]
            split at h
            · cases h
            · have hroom : ¬ room' < 3 := by omega
              rw [if_neg hroom]
              exact sameList_of_le shared (room - 3) (room' - 3) xs ys (by omega) h
      | integer _ | boolean _ | symbol _ | emptyMapping | mapping _ _ =>
          simpa [sameWithin] using h
  | room, room', .mapping k v, b, hle, h => by
      cases b with
      | mapping k' v' =>
          rw [sameWithin] at h ⊢
          split at h
          · rename_i hshared
            rw [if_pos hshared]
            exact h
          · rename_i hshared
            rw [if_neg hshared]
            split at h
            · cases h
            · have hroom : ¬ room' < 1 := by omega
              rw [if_neg hroom]
              -- the keys decide, or they agree and the values do
              split at h
              · rename_i hkeys
                rw [sameWithin_of_le shared (room - 1) (room' - 1) k k' (by omega) hkeys]
                exact sameWithin_of_le shared (room - 1) (room' - 1) v v' (by omega) h
              · rename_i hkeys
                rw [sameWithin_of_le shared (room - 1) (room' - 1) k k' (by omega) h]
                cases answer with
                | true => exact absurd h hkeys
                | false => rfl
      | integer _ | boolean _ | symbol _ | emptyMapping | quotation _ =>
          simpa [sameWithin] using h
/-- A comparison of lists that has an answer has the same answer with more room. -/
theorem sameList_of_le (shared : Bool) {answer : Bool} : ∀ (room room' : Nat)
    (xs ys : List Value), room ≤ room' → sameList shared room xs ys = .ok answer →
      sameList shared room' xs ys = .ok answer
  | room, room', [], ys, _, h => by cases ys <;> simpa [sameList] using h
  | room, room', x :: xs, [], _, h => by simpa [sameList] using h
  | room, room', x :: xs, y :: ys, hle, h => by
      rw [sameList] at h ⊢
      split at h
      · rename_i hfirst
        rw [sameWithin_of_le shared room room' x y hle hfirst]
        exact sameList_of_le shared room room' xs ys hle h
      · rename_i hfirst
        rw [sameWithin_of_le shared room room' x y hle h]
        cases answer with
        | true => exact absurd h hfirst
        | false => rfl
end

theorem copyable_of_le {limit limit' : Nat} {v : Value} (hle : limit ≤ limit')
    (h : v.copyable limit = true) : v.copyable limit' = true := by
  simp only [copyable, decide_eq_true_eq] at h ⊢
  omega

end Value

/-! ## Words under a higher limit -/

section Words

variable {limit limit' : Nat} {s left : Stack} {d : Dictionary} {marks : Nat} {effect : Effect}
  {failure : Failure}

/-- A built-in word that succeeds does the same under a higher limit. -/
theorem Builtin.Does.of_le {b : Builtin} (h : Builtin.Does limit d marks b s effect)
    (hle : limit ≤ limit') : Builtin.Does limit' d marks b s effect := by
  cases h with
  | arithmetic ha hb hv => exact .arithmetic ha hb hv
  | equal hv => exact .equal (Value.sameWithin_of_le _ limit limit' _ _ hle hv)
  | truth t s => exact .truth t s
  | dupQuotation hq hc => exact .dupQuotation hq (Value.copyable_of_le hle hc)
  | dupOther hq => exact .dupOther hq
  | pop e rest => exact .pop e rest
  | swap top deeper rest => exact .swap top deeper rest
  | clear s => exact .clear s
  | quote e rest => exact .quote e rest
  | apply hq => exact .apply hq
  | dip hq => exact .dip hq
  | choose hx hy => exact .choose hx hy
  | define hn hb => exact .define hn hb

/-- A built-in word that fails does so under every limit, unless its own is exhausted. -/
theorem Builtin.Fails.of_ne_nestingTooDeep {b : Builtin}
    (h : Builtin.Fails limit b s failure left) (hne : failure ≠ .fault .nestingTooDeep) :
    Builtin.Fails limit' b s failure left := by
  cases h with
  | short hlen => exact .short hlen
  | misfit hlen hmisfit => exact .misfit hlen hmisfit
  | zeroDivisor hzero hn => exact .zeroDivisor hzero hn
  | incomparable _ => exact absurd rfl hne
  | uncopyable _ _ => exact absurd rfl hne

/-- An operation does the same under a higher limit, unless the lower one is exhausted. -/
theorem Operation.run_eq_or_nestingTooDeep (hle : limit ≤ limit') (op : Operation) (s : Stack)
    (d : Dictionary) (marks : Nat) :
    op.run limit s d marks = op.run limit' s d marks ∨
      ∃ left, op.run limit s d marks = .failed (.fault .nestingTooDeep) left := by
  cases hrun : op.run limit s d marks with
  | done effect =>
      -- a word that succeeds has made its copy or has its answer, so more room changes nothing
      refine Or.inl (Eq.symm (Operation.run_eq_done_iff.2 ?_))
      cases Operation.run_eq_done_iff.1 hrun with
      | builtin h => exact .builtin (h.of_le hle)
      | defined s hc => exact .defined s (Value.copyable_of_le hle hc)
  | failed failure left =>
      by_cases hdeep : failure = .fault .nestingTooDeep
      · subst hdeep
        exact Or.inr ⟨left, rfl⟩
      · refine Or.inl (Eq.symm (Operation.run_eq_failed_iff.2 ?_))
        cases Operation.run_eq_failed_iff.1 hrun with
        | builtin h => exact .builtin (h.of_ne_nestingTooDeep hdeep)
        | defined s hc => exact absurd rfl hdeep

end Words

namespace Machine

/-! ## Runs under a higher limit -/

section Running

variable {limit limit' : Nat} {m : Machine}

/-- A step is the same under a higher limit, unless it exhausts the lower one. -/
theorem step_eq_or_exhausted (hle : limit ≤ limit') (m : Machine) :
    step limit m = step limit' m ∨
      ∃ o, step limit m = .halted o ∧ o.failure = some (.fault .nestingTooDeep) := by
  obtain ⟨s, d, marks, frames⟩ := m
  rcases frames with - | ⟨- | ⟨item, items⟩, rest⟩
  · exact Or.inl rfl
  · exact Or.inl rfl
  cases item with
  | restore e => exact Or.inl rfl
  | node e =>
      -- only the word that a node may be looks at the limit
      cases hnode : Action.ofNode d e.value with
      | error fault => exact Or.inl (by simp only [step, dispatch, hnode])
      | ok action =>
          cases action with
          | push v => exact Or.inl (by simp only [step, dispatch, hnode])
          | invoke name op =>
              rcases op.run_eq_or_nestingTooDeep hle s d marks with hsame | ⟨left, hdeep⟩
              · exact Or.inl (by simp only [step, dispatch, hnode, hsame])
              · right
                refine ⟨fail ⟨left, d, marks, items :: rest⟩ (.fault .nestingTooDeep), ?_, rfl⟩
                simp only [step, dispatch, hnode, hdeep]

/-- A run is the same under a higher limit, and it reports the same, unless it exhausts the
lower one. -/
theorem run_eq_or_exhausted (hle : limit ≤ limit') (fuel : Nat) (m : Machine) :
    (m.run limit fuel = m.run limit' fuel ∧
      ∀ earlier, m.recordsOfRun limit fuel earlier = m.recordsOfRun limit' fuel earlier) ∨
    ∃ o, m.run limit fuel = some o ∧ o.failure = some (.fault .nestingTooDeep) := by
  induction fuel generalizing m with
  | zero => exact Or.inl ⟨rfl, fun _ => rfl⟩
  | succ fuel ih =>
      -- as long as the lower limit holds, both runs go on with the same machine
      rcases step_eq_or_exhausted hle m with hstep | ⟨o, hstep, ho⟩
      · cases hnext : step limit' m with
        | halted o =>
            rw [hnext] at hstep
            left
            constructor
            · simp only [run, hstep, hnext]
            · intro earlier
              simp only [recordsOfRun, hstep, hnext]
        | next m' =>
            rw [hnext] at hstep
            rcases ih m' with ⟨hrun, hrecords⟩ | ⟨o, hrun, ho⟩
            · left
              constructor
              · simp only [run, hstep, hnext, hrun]
              · intro earlier
                simp only [recordsOfRun, hstep, hnext, hrecords]
            · right
              exact ⟨o, by simp only [run, hstep, hrun], ho⟩
      · right
        exact ⟨o, by simp only [run, hstep], ho⟩

end Running

/-! ## Steps that look at the limit -/

/-- Whether the next step of a machine copies or compares: it doubles a quotation, compares
two values or runs a defined word. -/
def descends (m : Machine) : Bool :=
  match m.frames with
  | (.node e :: _) :: _ =>
      match Action.ofNode m.words e.value with
      | .ok (.invoke _ (.defined _ _)) => true
      | .ok (.invoke _ (.builtin _ .equal)) => true
      | .ok (.invoke _ (.builtin _ .dup)) => m.stack.head?.any (·.value.isQuotation)
      | _ => false
  | _ => false

/-- A node that exhausts the limit copies or compares. -/
theorem descends_of_exhausts {limit : Nat} {s left : Stack} {d : Dictionary} {marks : Nat}
    {e : Entry} {items : Frame} {rest : List Frame} (h : Exhausts limit d s e.value left) :
    descends ⟨s, d, marks, (.node e :: items) :: rest⟩ = true := by
  generalize hv : e.value = v at h
  cases h with
  | dup hget hq _ => simp [descends, Action.ofNode_eq_invoke_iff.2 ⟨hv, hget⟩, hq]
  | equal hget _ => simp only [descends, Action.ofNode_eq_invoke_iff.2 ⟨hv, hget⟩]
  | defined hget _ => simp only [descends, Action.ofNode_eq_invoke_iff.2 ⟨hv, hget⟩]

/-- An evaluation never copies or compares. -/
def NeverDescends (limit : Nat) (m : Machine) : Prop :=
  ∀ m', Reaches limit m m' → m'.descends = false

end Machine

namespace Session

section Evaluating

variable {limit limit' : Nat} {s : Session} {text : String}

/-- An evaluation is the same under a higher limit, unless it exhausts the lower one. -/
theorem eval_eq_or_tooDeep (hle : limit ≤ limit') (s : Session) (text : String)
    (fuel threshold : Nat) :
    (∃ evaluation, s.eval ⟨limit, fuel, threshold⟩ text = some evaluation ∧
      evaluation.failure = some (.error .tooDeep)) ∨
    s.eval ⟨limit, fuel, threshold⟩ text = s.eval ⟨limit', fuel, threshold⟩ text := by
  unfold eval
  cases Program.read text with
  | error failure =>
      -- the reader knows of no limit
      exact Or.inr rfl
  | ok nodes =>
      -- the two runs agree, records included, or the lower limit has ended the first one
      simp only [runNodes]
      rcases Machine.run_eq_or_exhausted hle fuel
        (Machine.start nodes s.stack s.words s.marks) with ⟨hrun, hrecords⟩ | ⟨o, hrun, ho⟩
      · right
        rw [hrun, hrecords]
      · left
        rw [hrun]
        refine ⟨_, rfl, ?_⟩
        simp only [ho, Option.map_some]
        rfl

/-- An evaluation that never copies or compares does not exhaust the limit. -/
theorem eval_failure_ne_tooDeep {bounds : Bounds} {evaluation : Evaluation}
    (hnever : ∀ nodes, Program.read text = .ok nodes →
      Machine.NeverDescends bounds.nesting (Machine.start nodes s.stack s.words s.marks))
    (heval : s.eval bounds text = some evaluation) :
    evaluation.failure ≠ some (.error .tooDeep) := by
  intro hdeep
  rcases eval_failure_cases heval hdeep with ⟨e, -, hsyntax, herror⟩ |
    ⟨nodes, node, τ, items, below, failure, left, hread, hreach, -, hfails, hsurface, -⟩
  · -- exhausted nesting is no error of syntax
    cases herror
    cases hsyntax
  · have hfault : failure = .fault .nestingTooDeep :=
      (Failure.surface_eq_tooDeep_iff.1 hsurface).resolve_right hfails.ne_tooDeep
    subst hfault
    rcases Machine.fails_fault_iff.1 hfails with ⟨hover, -⟩ | ⟨-, hexhausts⟩
    · exact hover.ne_nestingTooDeep rfl
    · have hlevel := hnever nodes hread _ hreach
      rw [Session.machine, Machine.descends_of_exhausts hexhausts] at hlevel
      cases hlevel

end Evaluating

/-- The nesting limit cuts evaluations off and has no other effect. Under a limit no lower
than another one, evaluating a text in a session does exactly what it does under the lower
one, the log included, unless the lower limit is exhausted. And an evaluation that never
doubles a quotation, compares two values or runs a defined word does not exhaust any limit. -/
theorem eval_of_nesting_le (s : Session) (text : String) :
    (∀ limit limit', limit ≤ limit' → ∀ fuel threshold,
      (∃ evaluation, s.eval ⟨limit, fuel, threshold⟩ text = some evaluation ∧
        evaluation.failure = some (.error .tooDeep)) ∨
      s.eval ⟨limit, fuel, threshold⟩ text = s.eval ⟨limit', fuel, threshold⟩ text) ∧
    ∀ limit,
      (∀ nodes, Program.read text = .ok nodes →
        Machine.NeverDescends limit (Machine.start nodes s.stack s.words s.marks)) →
      ∀ fuel threshold evaluation, s.eval ⟨limit, fuel, threshold⟩ text = some evaluation →
        evaluation.failure ≠ some (.error .tooDeep) := by
  constructor
  · intro limit limit' hle fuel threshold
    exact eval_eq_or_tooDeep hle s text fuel threshold
  · intro limit hnever fuel threshold evaluation heval
    exact eval_failure_ne_tooDeep hnever heval

/-- Adding under a saved integer, above a quotation that goes three levels down, neither
copies nor compares. So it does the same under the lowest limit that can be asked for as under
the usual one. -/
theorem eval_of_nesting_le_of_dip :
    ∃ evaluation, evaluation.failure = none ∧
      Session.fresh.eval ⟨100, 20, 100⟩ "[ [ [ ] ] ] 4 5 [ 1 + ] dip" = some evaluation ∧
      Session.fresh.eval ⟨10000, 20, 100⟩ "[ [ [ ] ] ] 4 5 [ 1 + ] dip" = some evaluation := by
  have hread : Program.read "[ [ [ ] ] ] 4 5 [ 1 + ] dip" =
      .ok [.quotation [.quotation [.quotation []]], .symbol "4", .symbol "5",
        .quotation [.symbol "1", .symbol "+"], .symbol "dip"] := by
    decide +kernel
  have heval : Session.fresh.eval ⟨100, 20, 100⟩ "[ [ [ ] ] ] 4 5 [ 1 + ] dip" =
      some ⟨⟨[.plain (.integer 5), .plain (.integer 5),
        .plain (.quotation [.quotation [.quotation []]])], Dictionary.builtins, 0⟩, none, []⟩ := by
    decide +kernel
  obtain ⟨hsame, hnever⟩ := eval_of_nesting_le Session.fresh "[ [ [ ] ] ] 4 5 [ 1 + ] dip"
  have hnodes : ∀ nodes, Program.read "[ [ [ ] ] ] 4 5 [ 1 + ] dip" = .ok nodes →
      Machine.NeverDescends 100 (Machine.start nodes [] Dictionary.builtins 0) := by
    intro nodes hnodes
    rw [hread] at hnodes
    cases hnodes
    intro last hreach
    refine Machine.eq_false_of_mayMeet
      (?_ : Machine.mayMeet Machine.descends 100 20 _ = false) hreach
    decide +kernel
  refine ⟨_, rfl, heval, ?_⟩
  rcases hsame 100 10000 (by decide) 20 100 with ⟨evaluation, hdeep, hfailure⟩ | heq
  · exact absurd hfailure (hnever 100 hnodes 20 100 evaluation hdeep)
  · rw [← heq]
    exact heval

end Session

end Catena
