import Catena.Proofs.Program.Grammar
import Catena.Proofs.Session.Values
import Catena.Proofs.Value.Spelling

/-!
# Reading back what was written

The text of a value, cut into words, is the list of its tokens, provided that no
symbol in it holds a blank or is empty. If moreover no symbol is a bracket, reading
that list gives the value, with its integers and booleans spelled as symbols
(`Program.read_render`).

Reading makes symbols of this kind only (`Program.tokenNamed_of_read`), and no word
makes symbols. So every stack that a session can have is read back from its text
(`Session.Reachable.read_stack_render`).
-/

set_option autoImplicit false

namespace Catena

namespace Program

theorem syntactic_of_read {text : String} {nodes : List Value} (h : read text = .ok nodes) :
    ∀ v ∈ nodes, v.Syntactic :=
  (read_eq_ok_iff.1 h).1

/-- The symbols that reading produces are tokens. -/
theorem tokenNamed_of_read {text : String} {nodes : List Value} (h : read text = .ok nodes) :
    ∀ v ∈ nodes, v.TokenNamed := by
  obtain ⟨hnodes, htokens⟩ := read_eq_ok_iff.1 h
  intro v hv
  refine Value.tokenNamed_of_syntactic (hnodes v hv) fun t ht => ?_
  have hmem : t ∈ Text.words text := by
    rw [← htokens]
    exact List.mem_flatMap.2 ⟨v, hv, ht⟩
  exact Text.isWord_of_mem_words hmem

/-- A value whose symbols are tokens is read back from its text, with its integers
and booleans spelled. -/
theorem read_render {v : Value} {limit : Nat} {text : String} (hv : v.TokenNamed)
    (h : v.render limit = .ok text) : read text = .ok [v.spelled] := by
  have htext : text = " ".intercalate v.tokens := (Value.render_eq_ok_iff.1 h).2.symm
  -- cutting undoes joining, and the tokens do not tell a value from its spelling
  have hwords : Text.words text = [v.spelled].flatMap Value.tokens := by
    rw [htext, Text.words_intercalate (Value.isWord_of_mem_tokens hv), List.flatMap_singleton,
      Value.tokens_spelled]
  have hsyntactic : ∀ w ∈ [v.spelled], w.Syntactic := by
    simpa using Value.syntactic_spelled hv
  exact read_eq_ok_iff.2 ⟨hsyntactic, hwords.symm⟩

end Program

theorem Value.hereditary_tokenNamed : Value.Hereditary Value.TokenNamed where
  integer _ := .integer fun _ hname => by cases hname
  boolean _ := .boolean fun _ hname => by cases hname
  quotation _ := Value.everyLeaf_quotation

/-- A value as reading produces it can be written exactly when its nesting allows
it. -/
theorem Value.exists_render_iff {v : Value} (h : v.Syntactic) (limit : Nat) :
    (∃ text, v.render limit = .ok text) ↔ 2 * v.depth ≤ limit :=
  exists_render_iff_of_shortIntegers h.shortIntegers limit

namespace Session

/-- Whenever the stack of a reachable session can be written, its text is read as one
quotation: the one of the stack's values, bottom first, with the integers and
booleans in them spelled. All symbols on the stack and in the bodies of words are
tokens. And the nodes that any text is read as can be written up to the nesting
limit, and are read back unchanged. -/
theorem Reachable.read_stack_render {s : Session} (hs : s.Reachable) :
    (∀ limit text, s.stack.render limit = .ok text →
      Program.read text = .ok [.quotation (s.stack.toList.map Value.spelled)]) ∧
    (∀ e ∈ s.stack, e.value.TokenNamed) ∧
    (∀ key name body, (key, .defined name body) ∈ s.words.bindings →
      ∀ v ∈ body, v.TokenNamed) ∧
    ∀ text nodes, Program.read text = .ok nodes → ∀ limit,
      ((∃ shown, (Stack.ofList nodes).render limit = .ok shown) ↔
        2 * (Value.quotation nodes).depth ≤ limit) ∧
      ∀ shown, (Stack.ofList nodes).render limit = .ok shown →
        Program.read shown = .ok [.quotation nodes] := by
  have hcarries : s.Carries Value.TokenNamed :=
    hs.carries Value.hereditary_tokenNamed fun _ _ => Program.tokenNamed_of_read
  refine ⟨fun limit text htext => ?_, hcarries.stack, fun key name body hmem => ?_,
    fun text nodes hread limit => ⟨?_, fun shown hshown => ?_⟩⟩
  · have hstack : (Value.quotation s.stack.toList).TokenNamed := by
      refine .quotation fun v hv => ?_
      obtain ⟨e, he, rfl⟩ := List.mem_map.1 hv
      exact hcarries.stack e (List.mem_reverse.1 he)
    simpa using Program.read_render hstack htext
  · exact hcarries.words (key, .defined name body) hmem
  · rw [Stack.render, Stack.toList_ofList]
    exact Value.exists_render_iff (.quotation (Program.syntactic_of_read hread)) limit
  · -- spelling changes nothing here, because reading produces symbols only
    have hspelled : (Value.quotation nodes).spelled = .quotation nodes :=
      Value.spelled_of_syntactic (.quotation (Program.syntactic_of_read hread))
    rw [Stack.render, Stack.toList_ofList] at hshown
    rw [Program.read_render (.quotation (Program.tokenNamed_of_read hread)) hshown, hspelled]

/-- A session that defines a word and computes a negative integer and a boolean. Its
stack is read back as symbols and groups. -/
theorem Reachable.read_stack_render_of_definition :
    ∃ evaluation, Session.fresh.eval ⟨100, 50, 100⟩
        "[ dup * ] sq def 0 3 - true [ sq \x7b k [ ] \x7d ]" = some evaluation ∧
      evaluation.session.stack.render 100 = .ok "[ -3 true [ sq \x7b k [ ] \x7d ] ]" ∧
      Program.read "[ -3 true [ sq \x7b k [ ] \x7d ] ]" =
        .ok [.quotation [.symbol "-3", .symbol "true",
          .quotation [.symbol "sq", .mapping (.symbol "k") (.quotation [])]]] := by
  have heval : Session.fresh.eval ⟨100, 50, 100⟩
      "[ dup * ] sq def 0 3 - true [ sq \x7b k [ ] \x7d ]" =
        some ⟨⟨[.plain (.quotation [.symbol "sq", .mapping (.symbol "k") (.quotation [])]),
            .plain (.boolean true), .plain (.integer (-3))],
          Dictionary.builtins.insert "sq" (.defined "sq" [.symbol "dup", .symbol "*"]), 0⟩,
          none, []⟩ := by
    rfl
  have hrender : Stack.render 100
      [.plain (.quotation [.symbol "sq", .mapping (.symbol "k") (.quotation [])]),
        .plain (.boolean true), .plain (.integer (-3))] =
      .ok "[ -3 true [ sq \x7b k [ ] \x7d ] ]" := by
    decide +kernel
  exact ⟨_, heval, hrender, (Reachable.read_stack_render (.eval .fresh heval)).1 100 _ hrender⟩

end Session

end Catena
