import Catena.Proofs.Program.Grammar

/-!
# Reading by recursive descent

The grammar of programs suggests a reader that calls itself: at an opening bracket it reads
the group behind it, turns what it gets into a value, and goes on behind the group. `descend`
is this reader. It needs a level of recursion for each level of nesting, where `parseFrom`
keeps the groups under way in a list.

The two agree on every token list, from every position and inside of every kind of group
(`parseFrom_eq_descend`). A state of the reader stands for a stack of calls: one for each
group under way, and at the bottom the one that was asked for. When the innermost call comes
back with the rest of its group, the one around it goes on (`resume`), and reading from a
state is resuming it with what `descend` makes of the rest of the innermost group
(`readOn_eq_resume`). The bottom call differs from the others. It answers the nodes of its
group as they are, whatever their number, and what stands behind the group is not looked at.
-/

set_option autoImplicit false

namespace Catena.Program

open Value (Syntactic)

/-! ## The recursive reader -/

/-- What is read from the position `start` on: the nodes, and the position behind them. That
it does not lie before `start` is why reading on from there comes to an end. -/
structure Stretch (start : Nat) where
  nodes : List Value
  next : Nat
  start_le : start ≤ next

/-- Puts a node that reaches from `start` to `middle` in front of what is read there. -/
def Stretch.cons {start middle : Nat} (v : Value) (h : start ≤ middle) (read : Stretch middle) :
    Stretch start :=
  ⟨v :: read.nodes, read.next, Nat.le_trans h read.start_le⟩

/-- Reads from a position to the end of the group opened by `opener` or, without one, to the
end of the tokens. -/
def descend (tokens : List String) (opener : Option Bracket) (index : Nat) :
    Except Error (Stretch index) :=
  if h : index < tokens.length then
    match Bracket.ofOpener? tokens[index], Bracket.ofCloser? tokens[index] with
    | some b, _ =>
        match descend tokens (some b) (index + 1) with
        | .error e => .error e
        | .ok inner =>
            match close b inner.nodes with
            | .error e => .error e
            | .ok v =>
                (descend tokens opener inner.next).map (.cons v (Nat.le_of_succ_le inner.start_le))
    | none, some b =>
        match opener with
        | none => .error (.unexpectedCloser b index)
        | some opened =>
            if b = opened then .ok ⟨[], index + 1, Nat.le_succ index⟩
            else .error (.mismatchedGroup opened b index)
    | none, none =>
        (descend tokens opener (index + 1)).map (.cons (.symbol tokens[index]) (Nat.le_succ index))
  else
    match opener with
    | none => .ok ⟨[], index, Nat.le_refl index⟩
    | some b => .error (.unterminatedGroup b.opener)
termination_by tokens.length - index
decreasing_by
  · exact Nat.sub_succ_lt_self _ _ h
  · have hnext : index + 1 ≤ inner.next := inner.start_le
    omega
  · exact Nat.sub_succ_lt_self _ _ h

/-! ## States as stacks of calls -/

/-- The bracket that opened the innermost group under way. Where there is none, reading is
still in the group it began in. -/
def Reading.innermost (opener : Option Bracket) (r : Reading) : Option Bracket :=
  match r.enclosing with
  | [] => opener
  | (b, _) :: _ => some b

/-- Goes on from a state when the rest of its innermost group has been read. The group that
reading began in is the answer; every other group becomes a node of the group around it. -/
def resume {start : Nat} (opener : Option Bracket) (tokens : List String) (r : Reading) :
    Except Error (Stretch start) → Except Failure (List Value × Int)
  | .error e => .error (.error e)
  | .ok read =>
      match r.enclosing with
      | [] => .ok (r.nodes.reverse ++ read.nodes, read.next)
      | (b, before) :: outer =>
          match close b (r.nodes.reverse ++ read.nodes) with
          | .error e => .error (.error e)
          | .ok v =>
              readOn (opener.map Bracket.opener) (tokens.drop read.next) read.next
                ⟨v :: before, outer⟩

section Calls

variable {opener : Option Bracket} {tokens : List String}

/-- A node in front of what has been read is a node of the state. -/
theorem resume_map_cons {start middle : Nat} (r : Reading) (v : Value) (h : start ≤ middle)
    (read : Except Error (Stretch middle)) :
    resume opener tokens r (read.map (.cons v h)) = resume opener tokens (r.add v) read := by
  cases read with
  | error e => rfl
  | ok read => simp [Except.map, resume, Stretch.cons, Reading.add]

/-- A group that has been read as a whole is a node of the state that it was opened in. -/
theorem resume_enter {start : Nat} (b : Bracket) (r : Reading) (read : Stretch start) :
    resume opener tokens (r.enter b) (.ok read) =
      match close b read.nodes with
      | .error e => .error (.error e)
      | .ok v => readOn (opener.map Bracket.opener) (tokens.drop read.next) read.next (r.add v) :=
  rfl

variable {index : Nat} {b : Bracket}

theorem readOn_drop_opener (h : index < tokens.length)
    (hopener : Bracket.ofOpener? tokens[index] = some b) (r : Reading) :
    readOn (opener.map Bracket.opener) (tokens.drop index) index r =
      readOn (opener.map Bracket.opener) (tokens.drop (index + 1)) (index + 1 : Nat)
        (r.enter b) := by
  rw [List.drop_eq_getElem_cons h, Bracket.opener_of_ofOpener? hopener,
    readOn_of_accepts (.opener b r)]
  rfl

theorem readOn_drop_symbol (h : index < tokens.length)
    (hopener : Bracket.ofOpener? tokens[index] = none)
    (hcloser : Bracket.ofCloser? tokens[index] = none) (r : Reading) :
    readOn (opener.map Bracket.opener) (tokens.drop index) index r =
      readOn (opener.map Bracket.opener) (tokens.drop (index + 1)) (index + 1 : Nat)
        (r.add (.symbol tokens[index])) := by
  have hname : tokens[index] ∉ Bracket.tokens := Bracket.not_mem_tokens_iff.2 ⟨hopener, hcloser⟩
  rw [List.drop_eq_getElem_cons h, readOn_of_accepts (.symbol r hname)]
  rfl

/-- A closing bracket ends the innermost group if it is of its kind, and is an error
otherwise. -/
theorem readOn_drop_closer (h : index < tokens.length)
    (hcloser : Bracket.ofCloser? tokens[index] = some b) (r : Reading) :
    readOn (opener.map Bracket.opener) (tokens.drop index) index r =
      resume opener tokens r
        (match r.innermost opener with
          | none => .error (.unexpectedCloser b index)
          | some opened =>
              if b = opened then .ok ⟨[], index + 1, Nat.le_succ index⟩
              else .error (.mismatchedGroup opened b index)) := by
  obtain ⟨nodes, enclosing⟩ := r
  rw [List.drop_eq_getElem_cons h, Bracket.closer_of_ofCloser? hcloser]
  simp only [readOn, Bracket.ofOpener?_closer, Bracket.ofCloser?_closer]
  rcases enclosing with - | ⟨⟨opened, before⟩, outer⟩
  · -- the innermost group is the one that reading began in, if it began in a group at all
    cases opener with
    | none => rfl
    | some opened =>
        simp only [leaveBase, Option.map_some, Bracket.ofOpener?_opener, Reading.innermost]
        split
        · simp [resume]
        · rfl
  · simp only [Reading.innermost]
    split
    · next heq =>
        subst heq
        simp only [resume, List.append_nil]
        rfl
    · rfl

/-- Where the tokens end, the innermost group must not be open. -/
theorem readOn_drop_end (h : ¬ index < tokens.length) (r : Reading) :
    readOn (opener.map Bracket.opener) (tokens.drop index) index r =
      resume opener tokens r
        (match r.innermost opener with
          | none => .ok ⟨[], index, Nat.le_refl index⟩
          | some b => .error (.unterminatedGroup b.opener)) := by
  obtain ⟨nodes, enclosing⟩ := r
  rw [List.drop_eq_nil_of_le (Nat.le_of_not_lt h), readOn]
  rcases enclosing with - | ⟨⟨opened, before⟩, outer⟩
  · cases opener with
    | none => simp [finish, resume, Reading.innermost]
    | some opened => rfl
  · rfl

end Calls

/-- Reading on from a state is reading the rest of its innermost group by recursive descent
and then resuming the state. -/
theorem readOn_eq_resume (opener : Option Bracket) (tokens : List String) (index : Nat)
    (r : Reading) :
    readOn (opener.map Bracket.opener) (tokens.drop index) index r =
      resume opener tokens r (descend tokens (r.innermost opener) index) := by
  generalize hin : r.innermost opener = current
  -- along the calls of the recursive reader, for all states with that innermost group
  fun_induction descend tokens current index generalizing r with
  | case1 current index h b hopener e herror ih =>
      rw [readOn_drop_opener h hopener, ih (r.enter b) rfl, herror]
      rfl
  | case2 current index h b hopener inner hinner e hclose ih =>
      rw [readOn_drop_opener h hopener, ih (r.enter b) rfl, hinner, resume_enter, hclose]
      rfl
  | case3 current index h b hopener inner hinner v hclose ihinner ih =>
      -- the inner call is resumed in the state around it, which has one more node then
      rw [readOn_drop_opener h hopener, ihinner (r.enter b) rfl, hinner, resume_enter, hclose,
        resume_map_cons]
      exact ih (r.add v) hin
  | case4 index h b hcloser => rw [readOn_drop_closer h hcloser, hin]
  | case5 index h _ opened hcloser =>
      rw [readOn_drop_closer h hcloser, hin]
      simp only [if_true]
  | case6 index h b hcloser _ opened hne =>
      rw [readOn_drop_closer h hcloser, hin]
      simp only [if_neg hne]
  | case7 current index h hcloser hopener ih =>
      rw [readOn_drop_symbol h hopener hcloser, resume_map_cons]
      exact ih (r.add (.symbol tokens[index])) hin
  | case8 index h => rw [readOn_drop_end h, hin]
  | case9 index h b => rw [readOn_drop_end h, hin]

/-! ## What the recursive reader uses -/

/-- The token that ends the reading of a group; at top level there is none. -/
def ending (opener : Option Bracket) : List String :=
  (opener.map Bracket.closer).toList

/-- The tokens from `start` on begin with those of the nodes that were read and the one that
ends the group, and the position behind them is the one answered. -/
structure Stretch.Spells {start : Nat} (read : Stretch start) (tokens : List String)
    (opener : Option Bracket) : Prop where
  syntactic : ∀ v ∈ read.nodes, Syntactic v
  drop_eq : tokens.drop start =
    read.nodes.flatMap Value.tokens ++ ending opener ++ tokens.drop read.next
  next_eq : read.next = start + (read.nodes.flatMap Value.tokens ++ ending opener).length

section Spelling

variable {tokens : List String} {opener : Option Bracket} {start middle : Nat} {v : Value}

/-- A node in front of a stretch is spelled in front of it. -/
theorem Stretch.Spells.cons {read : Stretch middle} (h : read.Spells tokens opener)
    (hv : Syntactic v) (hdrop : tokens.drop start = v.tokens ++ tokens.drop middle)
    (hmiddle : middle = start + v.tokens.length) (hle : start ≤ middle) :
    (Stretch.cons v hle read).Spells tokens opener where
  syntactic := List.forall_mem_cons.2 ⟨hv, h.syntactic⟩
  drop_eq := by
    rw [hdrop, h.drop_eq]
    simp only [Stretch.cons, List.flatMap_cons, List.append_assoc]
  next_eq := by
    have hnext : read.next = middle + (read.nodes.flatMap Value.tokens ++ ending opener).length :=
      h.next_eq
    simp only [Stretch.cons, List.flatMap_cons, List.append_assoc, List.length_append] at hnext ⊢
    omega

/-- A group that was read is spelled by its value. -/
theorem Stretch.Spells.group {b : Bracket} {inner : Stretch (start + 1)}
    (h : inner.Spells tokens (some b)) (hclose : close b inner.nodes = .ok v)
    (hlt : start < tokens.length) (hopener : Bracket.ofOpener? tokens[start] = some b) :
    Syntactic v ∧ tokens.drop start = v.tokens ++ tokens.drop inner.next ∧
      inner.next = start + v.tokens.length := by
  refine ⟨syntactic_of_close hclose h.syntactic, ?_, ?_⟩
  · rw [List.drop_eq_getElem_cons hlt, Bracket.opener_of_ofOpener? hopener, h.drop_eq,
      tokens_of_close hclose]
    rfl
  · rw [h.next_eq, tokens_of_close hclose, List.length_cons]
    exact Nat.add_right_comm _ _ _

theorem Stretch.exists_of_map_cons {answer : Except Error (Stretch middle)} {hle : start ≤ middle}
    {read : Stretch start} (h : answer.map (.cons v hle) = .ok read) :
    ∃ rest, answer = .ok rest ∧ Stretch.cons v hle rest = read := by
  cases answer with
  | error e => cases h
  | ok rest => exact ⟨rest, rfl, Except.ok.inj h⟩

/-- What the recursive reader answers is spelled by the tokens it has used. -/
theorem spells_of_descend {read : Stretch start} (h : descend tokens opener start = .ok read) :
    read.Spells tokens opener := by
  fun_induction descend tokens opener start with
  | case1 | case2 | case4 | case6 | case9 => cases h
  | case3 opener index hlt b hopener inner hinner v hclose ihinner ih =>
      obtain ⟨hv, hdrop, hnext⟩ := (ihinner hinner).group hclose hlt hopener
      obtain ⟨rest, hrest, rfl⟩ := Stretch.exists_of_map_cons h
      exact (ih hrest).cons hv hdrop hnext _
  | case5 index hlt _ b hcloser =>
      cases h
      refine ⟨List.forall_mem_nil _, ?_, rfl⟩
      rw [List.drop_eq_getElem_cons hlt, Bracket.closer_of_ofCloser? hcloser]
      rfl
  | case7 opener index hlt hcloser hopener ih =>
      have hname : tokens[index] ∉ Bracket.tokens :=
        Bracket.not_mem_tokens_iff.2 ⟨hopener, hcloser⟩
      have hdrop : tokens.drop index =
          (Value.symbol tokens[index]).tokens ++ tokens.drop (index + 1) := by
        rw [List.drop_eq_getElem_cons hlt, Value.tokens_symbol]
        rfl
      obtain ⟨rest, hrest, rfl⟩ := Stretch.exists_of_map_cons h
      exact (ih hrest).cons (.symbol ⟨_, rfl, hname⟩) hdrop (by simp) _
  | case8 index hlt =>
      cases h
      exact ⟨List.forall_mem_nil _, rfl, rfl⟩

end Spelling

/-! ## Agreement -/

section Agreement

variable {tokens : List String} {start next : Nat} {b : Bracket} {nodes : List Value}

theorem parseFrom_eq (tokens : List String) (start : Nat) (opener : Option Bracket) :
    parseFrom tokens start (opener.map Bracket.opener) =
      match descend tokens opener start with
      | .error e => .error (.error e)
      | .ok read => .ok (read.nodes, (read.next : Int)) := by
  have hread : parseFrom tokens start (opener.map Bracket.opener) =
      readOn (opener.map Bracket.opener) (tokens.drop start) start .start := rfl
  rw [hread, readOn_eq_resume]
  simp only [Reading.innermost, Reading.start]
  cases descend tokens opener start with
  | error e => rfl
  | ok read => rfl

/-- Reading inside of a group succeeds exactly when nodes follow and then the bracket that
closes the group. -/
theorem parseFrom_within_iff :
    parseFrom tokens start (some b.opener) = .ok (nodes, (next : Int)) ↔
      (∀ v ∈ nodes, Syntactic v) ∧
        (∃ rest, tokens.drop start = nodes.flatMap Value.tokens ++ b.closer :: rest) ∧
        next = start + (nodes.flatMap Value.tokens).length + 1 := by
  constructor
  · intro h
    have hread := parseFrom_eq tokens start (some b)
    rw [Option.map_some, h] at hread
    cases hdescend : descend tokens (some b) start with
    | error e =>
        rw [hdescend] at hread
        cases hread
    | ok read =>
        obtain ⟨hnodes, hdrop, hnext⟩ := spells_of_descend hdescend
        simp only [hdescend, Except.ok.injEq, Prod.mk.injEq, Int.natCast_inj] at hread
        obtain ⟨rfl, rfl⟩ := hread
        refine ⟨hnodes, ⟨tokens.drop read.next, ?_⟩, ?_⟩
        · rw [hdrop, List.append_assoc]
          rfl
        · rw [hnext, List.length_append]
          rfl
  · rintro ⟨hnodes, ⟨rest, hdrop⟩, rfl⟩
    have hreads := readOn_flatMap_tokens (fun v hv => reads_of_syntactic (hnodes v hv))
      (some b.opener) (b.closer :: rest) start .start
    change readOn (some b.opener) (tokens.drop start) start .start = _
    rw [hdrop, hreads]
    simp [readOn, leaveBase, Reading.start]

/-- What stands behind the closing bracket of the group does not matter. -/
theorem parseFrom_take_append
    (h : parseFrom tokens start (some b.opener) = .ok (nodes, (next : Int))) (more : List String) :
    parseFrom (tokens.take next ++ more) start (some b.opener) = .ok (nodes, (next : Int)) := by
  obtain ⟨hnodes, ⟨rest, hdrop⟩, hnext⟩ := parseFrom_within_iff.1 h
  have hlength :
      tokens.length - start = (nodes.flatMap Value.tokens).length + (rest.length + 1) := by
    rw [← List.length_drop, hdrop, List.length_append, List.length_cons]
  -- the tokens up to the closing bracket are all there
  have hstart : start ≤ (tokens.take next).length := by
    rw [List.length_take]
    omega
  have htaken : (tokens.take next).drop start = nodes.flatMap Value.tokens ++ [b.closer] := by
    have hcount : next - start = (nodes.flatMap Value.tokens).length + 1 := by omega
    rw [List.drop_take, hdrop, hcount, List.take_length_add_append]
    rfl
  refine parseFrom_within_iff.2 ⟨hnodes, ⟨more, ?_⟩, hnext⟩
  rw [List.drop_append_of_le_length hstart, htaken, List.append_assoc]
  rfl

end Agreement

/-- Reading from any position, at top level or inside of a group, gives what recursive descent
gives: the same nodes and the same position behind them, or the same error. Inside of a group
it succeeds exactly when nodes follow, any number of them, and then the bracket that closes the
group. It ends behind this bracket, and the tokens behind it may be any others. -/
theorem parseFrom_eq_descend (tokens : List String) (start : Nat) (opener : Option Bracket) :
    parseFrom tokens start (opener.map Bracket.opener) =
        (match descend tokens opener start with
          | .error e => .error (.error e)
          | .ok read => .ok (read.nodes, (read.next : Int))) ∧
      ∀ (b : Bracket) (nodes : List Value) (next : Nat),
        (parseFrom tokens start (some b.opener) = .ok (nodes, (next : Int)) ↔
          (∀ v ∈ nodes, Syntactic v) ∧
            (∃ rest, tokens.drop start = nodes.flatMap Value.tokens ++ b.closer :: rest) ∧
            next = start + (nodes.flatMap Value.tokens).length + 1) ∧
        (parseFrom tokens start (some b.opener) = .ok (nodes, (next : Int)) → ∀ more,
          parseFrom (tokens.take next ++ more) start (some b.opener) =
            .ok (nodes, (next : Int))) := by
  refine ⟨parseFrom_eq tokens start opener, ?_⟩
  intro b nodes next
  exact ⟨parseFrom_within_iff, parseFrom_take_append⟩

/-- Reading begins inside of a curly group with three elements. It gives them all, since only
groups inside of it have to be mappings, and does not come to the square bracket behind it. -/
theorem parseFrom_eq_descend_of_three_elements :
    parseFrom ["\x7b", "a", "[", "b", "]", "\x7b", "\x7d", "\x7d", "]", "c"] (1 : Nat)
        (some "\x7b") =
      .ok ([.symbol "a", .quotation [.symbol "b"], .emptyMapping], ((8 : Nat) : Int)) ∧
    ∀ more, parseFrom (["\x7b", "a", "[", "b", "]", "\x7b", "\x7d", "\x7d"] ++ more) (1 : Nat)
        (some "\x7b") =
      .ok ([.symbol "a", .quotation [.symbol "b"], .emptyMapping], ((8 : Nat) : Int)) := by
  have hread : parseFrom ["\x7b", "a", "[", "b", "]", "\x7b", "\x7d", "\x7d", "]", "c"] (1 : Nat)
      (some "\x7b") =
        .ok ([.symbol "a", .quotation [.symbol "b"], .emptyMapping], ((8 : Nat) : Int)) := by
    rfl
  exact ⟨hread, ((parseFrom_eq_descend _ 1 (some .curly)).2 .curly _ 8).2 hread⟩

end Catena.Program
