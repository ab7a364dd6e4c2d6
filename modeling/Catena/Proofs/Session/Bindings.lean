import Catena.Proofs.Session

/-!
# How a dictionary grows

A dictionary only grows. A step of the machine leaves it alone, unless the step runs the
built-in word `def`; then one name is bound to the quotation that `def` took from the stack
(`Machine.Move.words_cases`). So whatever a run does, names stay bound and keep their order, new
ones come last, and what a name is bound to changes only at a `def` for that name. In
particular, running a defined word changes no body, neither its own nor that of another word.

From runs this passes to evaluations, however they end, and to sequences of them
(`Session.bindings_of_leads`).
-/

set_option autoImplicit false

namespace Catena

/-! ## Dictionaries -/

/-- The names that a value offers to a definition: its own, if it is a symbol, and that of its
only item, if it is a quotation of one symbol. -/
theorem Value.name?_eq_some_iff {v : Value} {name : String} :
    v.name? = some name ↔ v = .symbol name ∨ v = .quotation [.symbol name] := by
  constructor
  · intro h
    unfold name? at h
    split at h
    · cases h
      exact Or.inl rfl
    · cases h
      exact Or.inr rfl
    · cases h
  · rintro (rfl | rfl)
    · rfl
    · rfl

theorem Entry.value_of_items? {e : Entry} {items : List Entry} (h : e.items? = some items) :
    e.value = .quotation (items.map (·.value)) := by
  obtain ⟨v, mark⟩ := e
  cases v with
  | quotation vs =>
      cases h
      simp [Function.comp_def]
  | integer _ | boolean _ | symbol _ | emptyMapping | mapping _ _ => cases h

namespace Dictionary

variable {d : Dictionary} {name other : String} {op : Operation}

/-- The order of a dictionary is sound: no name occurs twice, the built-in words come first,
and every name is bound to an operation that carries it. -/
structure Sound (d : Dictionary) : Prop where
  nodup : d.names.Nodup
  builtins_first : Builtin.all.map Builtin.word <+: d.names
  carries : ∀ name op, d.get? name = some op → op.name = name

@[simp] theorem get?_insert_self (d : Dictionary) (name : String) (op : Operation) :
    (d.insert name op).get? name = some op :=
  find?_put_self name op d.bindings

theorem get?_insert_of_ne (h : other ≠ name) (d : Dictionary) (op : Operation) :
    (d.insert name op).get? other = d.get? other :=
  find?_put_of_ne h op d.bindings

theorem names_insert (d : Dictionary) (name : String) (op : Operation) :
    (d.insert name op).names = if name ∈ d.names then d.names else d.names ++ [name] :=
  names_put name op d.bindings

theorem names_isPrefix_insert (d : Dictionary) (name : String) (op : Operation) :
    d.names <+: (d.insert name op).names := by
  rw [names_insert]
  split
  · exact List.prefix_refl _
  · exact List.prefix_append _ _

theorem contains_insert (h : d.contains other = true) (name : String) (op : Operation) :
    (d.insert name op).contains other = true := by
  by_cases hname : other = name
  · subst hname
    simp [contains]
  · rw [contains, get?_insert_of_ne hname]
    exact h

/-- Binding a name to an operation that carries it keeps a dictionary sound. -/
theorem Sound.insert (h : d.Sound) (hop : op.name = name) : (d.insert name op).Sound where
  nodup := by
    rw [names_insert]
    split
    · exact h.nodup
    · -- a name that is added at the end was not there
      rename_i hnew
      rw [List.nodup_append]
      refine ⟨h.nodup, List.pairwise_singleton _ name, ?_⟩
      intro bound hbound last hlast heq
      rw [List.mem_singleton] at hlast
      subst heq
      subst hlast
      exact hnew hbound
  builtins_first := h.builtins_first.trans (names_isPrefix_insert d name op)
  carries := by
    intro other found hfound
    by_cases hname : other = name
    · subst hname
      rw [get?_insert_self] at hfound
      cases hfound
      exact hop
    · rw [get?_insert_of_ne hname] at hfound
      exact h.carries other found hfound

/-- What became of a dictionary by definitions: the names are there in their order, with new
ones after them, no name has lost its binding, and the dictionary is sound if it was. -/
structure Grows (d d' : Dictionary) : Prop where
  names_isPrefix : d.names <+: d'.names
  contains : ∀ name, d.contains name = true → d'.contains name = true
  sound : d.Sound → d'.Sound

theorem Grows.refl (d : Dictionary) : d.Grows d where
  names_isPrefix := List.prefix_refl _
  contains _ h := h
  sound h := h

/-- A definition makes a dictionary grow. -/
theorem Grows.insert {d' : Dictionary} (h : d.Grows d') (name : String) (body : List Value) :
    d.Grows (d'.insert name (.defined name body)) where
  names_isPrefix := h.names_isPrefix.trans (names_isPrefix_insert d' name _)
  contains other hother := contains_insert (h.contains other hother) name _
  sound hd := (h.sound hd).insert rfl

theorem sound_builtins : builtins.Sound where
  nodup := by decide +kernel
  builtins_first := by decide +kernel
  carries := by
    have hfind : ∀ bindings : List (String × Operation),
        (∀ binding ∈ bindings, binding.2.name = binding.1) →
        ∀ name op, find? name bindings = some op → op.name = name := by
      intro bindings hbindings name op h
      induction bindings with
      | nil => cases h
      | cons binding rest ih =>
          obtain ⟨hfirst, hrest⟩ := List.forall_mem_cons.1 hbindings
          rw [find?] at h
          split at h
          · rename_i heq
            cases h
            exact hfirst.trans heq
          · exact ih hrest h
    exact hfind _ (by decide +kernel)

end Dictionary

/-! ## Steps and runs -/

namespace Machine

variable {limit : Nat} {m m' : Machine} {name : String}

/-- The next step of a machine runs the built-in word `def`, which finds `name` and the
quotation `body` on the stack. -/
inductive Binds : Machine → String → List Value → Prop
  | intro {e top deeper : Entry} {called word name : String} {body : List Value} {below : Stack}
      {d : Dictionary} {marks : Nat} {items : Frame} {rest : List Frame}
      (hnode : Action.ofNode d e.value = .ok (.invoke called (.builtin word .define)))
      (hname : top.value = .symbol name ∨ top.value = .quotation [.symbol name])
      (hbody : deeper.value = .quotation body) :
      Binds ⟨top :: deeper :: below, d, marks, (.node e :: items) :: rest⟩ name body

/-- The next step of a machine runs a defined word. -/
def RunsDefined (m : Machine) : Prop :=
  ∃ e items rest called word body, m.frames = (.node e :: items) :: rest ∧
    Action.ofNode m.words e.value = .ok (.invoke called (.defined word body))

/-- What a step does to the dictionary: nothing, unless it runs `def`. -/
theorem Move.words_cases (h : Move limit m m') :
    m'.words = m.words ∨
      ∃ name body, m.Binds name body ∧ m'.words = m.words.insert name (.defined name body) := by
  cases h with
  | drop => exact Or.inl rfl
  | restore => exact Or.inl rfl
  | push _ => exact Or.inl rfl
  | word hnode hrun =>
      cases Operation.run_eq_done_iff.1 hrun with
      | defined s _ => exact Or.inl rfl
      | builtin hdoes =>
          cases hdoes with
          | @define n q name items below hn hq =>
              right
              refine ⟨name, items.map (·.value), ?_, rfl⟩
              exact .intro hnode (Value.name?_eq_some_iff.1 hn) (Entry.value_of_items? hq)
          | arithmetic | equal | truth | dupQuotation | dupOther | pop | swap | clear | quote
          | apply | dip | choose => exact Or.inl rfl

/-- Running a defined word leaves the dictionary as it is. -/
theorem Move.words_of_runsDefined (h : Move limit m m') (hdefined : m.RunsDefined) :
    m'.words = m.words := by
  obtain ⟨e, items, rest, called, word, body, hframes, hnode⟩ := hdefined
  rcases h.words_cases with hsame | ⟨name, bound, hbinds, -⟩
  · exact hsame
  · -- the same node cannot be `def` as well
    cases hbinds with
    | intro hdef =>
        cases hframes
        rw [hnode] at hdef
        cases hdef

/-- What a step does to a binding: nothing, unless it runs `def` for that very name. -/
theorem Move.get?_cases (h : Move limit m m') (name : String) :
    m'.words.get? name = m.words.get? name ∨
      ∃ body, m.Binds name body ∧ m'.words.get? name = some (.defined name body) := by
  rcases h.words_cases with hsame | ⟨bound, body, hbinds, hwords⟩
  · exact Or.inl (by rw [hsame])
  · by_cases hname : name = bound
    · subst hname
      exact Or.inr ⟨body, hbinds, by rw [hwords, Dictionary.get?_insert_self]⟩
    · exact Or.inl (by rw [hwords, Dictionary.get?_insert_of_ne hname])

/-- A dictionary grows along a run. -/
theorem Reaches.grows {d : Dictionary} (h : Reaches limit m m') (hd : d.Grows m.words) :
    d.Grows m'.words := by
  induction h with
  | refl => exact hd
  | tail _ hmove ih =>
      rcases hmove.words_cases with hsame | ⟨name, body, -, hwords⟩
      · rw [hsame]
        exact ih
      · rw [hwords]
        exact ih.insert name body

/-- What a run does to a binding: nothing, unless it runs `def` for that very name. The last
such step decides. -/
theorem Reaches.get?_cases (h : Reaches limit m m') (name : String) :
    m'.words.get? name = m.words.get? name ∨
      ∃ last next body, Reaches limit m last ∧ Move limit last next ∧ Reaches limit next m' ∧
        last.Binds name body ∧ m'.words.get? name = some (.defined name body) := by
  induction h with
  | refl => exact Or.inl rfl
  | @tail before after hreach hmove ih =>
      rcases hmove.get?_cases name with hsame | ⟨body, hbinds, hget⟩
      · rw [hsame]
        -- the last definition so far is still the last one
        rcases ih with hstart | ⟨last, next, body, hlast, hnext, hbefore, hbinds, hget⟩
        · exact Or.inl hstart
        · exact Or.inr ⟨last, next, body, hlast, hnext, hbefore.tail hmove, hbinds, hget⟩
      · exact Or.inr ⟨before, after, body, hreach, hmove, .refl, hbinds, hget⟩

theorem Stop.words {outcome : Outcome} (h : Stop limit m outcome) : outcome.words = m.words := by
  cases h with
  | finished => rfl
  | @failed _ _ _ _ _ failure _ _ _ =>
      cases failure with
      | error e => rfl
      | fault f => rfl

end Machine

/-! ## Evaluations and sequences of them -/

namespace Session

/-- One evaluation, finished or failed, makes `s'` of the session `s`. -/
def Evaluated (s s' : Session) : Prop :=
  ∃ nesting text failure, s.Ends nesting text s' failure

/-- A sequence of evaluations makes `s'` of the session `s`. -/
abbrev Leads : Session → Session → Prop :=
  Relation.ReflTransGen Evaluated

/-- A sequence of evaluations that starts in the session `s` comes to the machine `m`, in an
evaluation that need not end. -/
def Visits (s : Session) (m : Machine) : Prop :=
  ∃ s' limit text nodes, Leads s s' ∧ Program.read text = .ok nodes ∧
    Machine.Reaches limit (Machine.start nodes s'.stack s'.words s'.marks) m

section Leading

variable {s s' : Session} {m : Machine} {name : String}

/-- The dictionary that an evaluation leaves is the one it found, or that of a machine it came
to. -/
theorem Evaluated.words_cases (h : Evaluated s s') :
    s'.words = s.words ∨
      ∃ limit text nodes last, Program.read text = .ok nodes ∧
        Machine.Reaches limit (Machine.start nodes s.stack s.words s.marks) last ∧
        s'.words = last.words := by
  obtain ⟨nesting, text, failure, hends⟩ := h
  cases hread : Program.read text with
  | error refusal =>
      rw [ends_iff_of_read_error hread] at hends
      exact Or.inl (by rw [hends.1])
  | ok nodes =>
      -- the machine that stops is the last one of the evaluation
      obtain ⟨o, hhalts, rfl, -⟩ := (ends_iff_halts hread).1 hends
      obtain ⟨last, hreach, hstop⟩ := Machine.halts_iff.1 hhalts
      exact Or.inr ⟨nesting, text, nodes, last, hread, hreach, hstop.words⟩

/-- A dictionary grows along an evaluation. -/
theorem Evaluated.grows {d : Dictionary} (h : Evaluated s s') (hd : d.Grows s.words) :
    d.Grows s'.words := by
  rcases h.words_cases with hsame | ⟨limit, text, nodes, last, -, hreach, hwords⟩
  · rw [hsame]
    exact hd
  · rw [hwords]
    exact hreach.grows hd

/-- A dictionary grows along a sequence of evaluations. -/
theorem Leads.grows (h : Leads s s') : s.words.Grows s'.words := by
  induction h with
  | refl => exact .refl _
  | tail _ heval ih => exact heval.grows ih

/-- A dictionary has grown at every machine that the evaluations come to. -/
theorem Visits.grows (h : Visits s m) : s.words.Grows m.words := by
  obtain ⟨s', limit, text, nodes, hleads, -, hreach⟩ := h
  exact hreach.grows hleads.grows

/-- What an evaluation at the end of a sequence does to a binding. -/
theorem Evaluated.get?_cases {t : Session} (hleads : Leads s t) (h : Evaluated t s')
    (name : String) :
    s'.words.get? name = t.words.get? name ∨
      ∃ m body, Visits s m ∧ m.Binds name body ∧
        s'.words.get? name = some (.defined name body) := by
  rcases h.words_cases with hsame | ⟨limit, text, nodes, last, hread, hreach, hwords⟩
  · exact Or.inl (by rw [hsame])
  · rw [hwords]
    rcases hreach.get?_cases name with hget | ⟨m, next, body, hm, -, -, hbinds, hget⟩
    · exact Or.inl hget
    · exact Or.inr ⟨m, body, ⟨t, limit, text, nodes, hleads, hread, hm⟩, hbinds, hget⟩

/-- What a sequence of evaluations does to a binding: nothing, unless a step on the way runs
`def` for that very name. -/
theorem Leads.get?_cases (h : Leads s s') (name : String) :
    s'.words.get? name = s.words.get? name ∨
      ∃ m body, Visits s m ∧ m.Binds name body ∧
        s'.words.get? name = some (.defined name body) := by
  induction h with
  | refl => exact Or.inl rfl
  | tail hleads heval ih =>
      rcases heval.get?_cases hleads name with hsame | hbound
      · rw [hsame]
        exact ih
      · exact Or.inr hbound

theorem Reachable.words_sound (h : Reachable s) : s.words.Sound := by
  refine Reachable.preserves (P := fun s => s.words.Sound) Dictionary.sound_builtins ?_ ?_ h
  · intro s bounds text evaluation hs heval
    have hone : Evaluated s evaluation.session := ⟨_, text, _, _, _, _, heval⟩
    exact (hone.grows (.refl s.words)).sound hs
  · intro s hs
    exact hs

end Leading

/-- How evaluations change the dictionary of a session. That of a reachable session is sound.
Along every sequence of evaluations, finished or failed, it grows, also in the midst of an
evaluation. A step of an evaluation, a run of steps and a whole sequence of evaluations leave a
binding as it is, unless they run `def` for that very name; then the name is bound to the
quotation that `def` took from the stack. In particular, running a defined word changes no
binding. -/
theorem bindings_of_leads (s : Session) :
    (Reachable s → s.words.Sound) ∧
    (∀ s', Leads s s' →
      s.words.Grows s'.words ∧
      ∀ name, s'.words.get? name = s.words.get? name ∨
        ∃ m body, Visits s m ∧ m.Binds name body ∧
          s'.words.get? name = some (.defined name body)) ∧
    ∀ m, Visits s m →
      s.words.Grows m.words ∧
      (∀ limit m', Machine.Move limit m m' →
        (m.RunsDefined → m'.words = m.words) ∧
        ∀ name, m'.words.get? name = m.words.get? name ∨
          ∃ body, m.Binds name body ∧ m'.words.get? name = some (.defined name body)) ∧
      ∀ limit m', Machine.Reaches limit m m' → ∀ name,
        m'.words.get? name = m.words.get? name ∨
          ∃ last next body, Machine.Reaches limit m last ∧ Machine.Move limit last next ∧
            Machine.Reaches limit next m' ∧ last.Binds name body ∧
            m'.words.get? name = some (.defined name body) := by
  refine ⟨Reachable.words_sound, ?_, ?_⟩
  · intro s' hleads
    exact ⟨hleads.grows, hleads.get?_cases⟩
  · intro m hvisits
    refine ⟨hvisits.grows, ?_, ?_⟩
    · intro limit m' hmove
      exact ⟨hmove.words_of_runsDefined, hmove.get?_cases⟩
    · intro limit m' hreach
      exact hreach.get?_cases

/-- A word that defines itself anew while it runs. Afterwards it comes after the built-in
words, and it is bound to the quotation that was defined last. -/
theorem bindings_of_leads_of_redefinition :
    ∃ s', Leads Session.fresh s' ∧ s'.words.Sound ∧
      Session.fresh.words.names <+: s'.words.names ∧
      ∃ m, Visits Session.fresh m ∧ m.Binds "f" [.symbol "2"] ∧
        s'.words.get? "f" = some (.defined "f" [.symbol "2"]) := by
  have heval : ∃ evaluation,
      Session.fresh.eval ⟨100, 20, 100⟩ "[ [ 2 ] [ f ] def 1 ] [ f ] def f" = some evaluation ∧
      evaluation.session.words.get? "f" = some (.defined "f" [.symbol "2"]) := by
    refine ⟨⟨⟨[.plain (.integer 1)], Dictionary.builtins.insert "f" (.defined "f" [.symbol "2"]),
      0⟩, none, []⟩, ?_, ?_⟩
    · decide +kernel
    · decide +kernel
  obtain ⟨evaluation, heval, hget⟩ := heval
  obtain ⟨hsound, hleads, -⟩ := bindings_of_leads Session.fresh
  have hone : Leads Session.fresh evaluation.session :=
    .single ⟨_, _, _, _, _, _, heval⟩
  obtain ⟨hgrows, hcases⟩ := hleads _ hone
  refine ⟨_, hone, hgrows.sound (hsound .fresh), hgrows.names_isPrefix, ?_⟩
  rcases hcases "f" with hsame | ⟨m, body, hvisits, hbinds, hbody⟩
  · -- the name is not bound in a fresh session
    have hfresh : Session.fresh.words.get? "f" = none := by decide +kernel
    rw [hget, hfresh] at hsame
    cases hsame
  · rw [hget] at hbody
    cases hbody
    exact ⟨m, hvisits, hbinds, hget⟩

end Session

end Catena
