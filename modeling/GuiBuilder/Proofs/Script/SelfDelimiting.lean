import GuiBuilder.Proofs.Script.Lexer

/-!
# Text literals delimit themselves

A text of a window stands in its script as a literal, in code or in a comment, with other text around
it. The main statement says that no text gets out of its place (`quoted_delimits_itself`): the reader of
literals takes back the text and stops right behind the literal, whatever follows, and the lexer of Lua
goes on from there. Digits that follow are no part of an escape, since an escaped control character always
has three of its own; a line cannot end, since no control character is left in a literal.
-/

namespace GuiBuilder.Script

open Lua

theorem not_isLineEnd_of_mem_quoted {t : Text} {p : CodePoint} (h : p ∈ quoted t) : isLineEnd p = false := by
  have hvisible := visible_of_mem_quoted h
  rw [isLineEnd, Bool.or_eq_false_iff, decide_eq_false_iff_not, decide_eq_false_iff_not]
  constructor
  · rintro rfl
    exact absurd hvisible.1 (by decide)
  · rintro rfl
    exact absurd hvisible.1 (by decide)

/-- What scripts write before a text in a comment. -/
def commentLabels : List Text := ["-- Window: ", "-- Folder: "]

/-- A line with a text in a comment holds no tokens. -/
theorem run_commentLine {label : Text} (hlabel : label ∈ commentLabels) (t : Text) (tokens : List Token) :
    Reading.run ⟨tokens, .code⟩ (label ++ quoted t ++ "\n") = some ⟨tokens, .code⟩ := by
  have hopen : Reading.run ⟨tokens, .code⟩ label = some ⟨tokens, .comment⟩ := by
    simp only [commentLabels, List.mem_cons, List.not_mem_nil, or_false] at hlabel
    rcases hlabel with rfl | rfl <;>
      simp [Text.ofString, Reading.run, Reading.step, State.step, start, commentStep, isSpace, isLineEnd,
        CodePoint.digit?, isVariablePoint]
  have hend : Reading.step ⟨tokens, .comment⟩ (.char '\n') = some ⟨tokens, .code⟩ := by
    simp [Reading.step, State.step, commentStep, isLineEnd]
  rw [Reading.run_append, Reading.run_append, hopen, Option.bind_some,
    Reading.run_comment (fun p hp => not_isLineEnd_of_mem_quoted hp), Option.bind_some, Reading.run_lineFeed,
    hend]

/-- **A text literal delimits itself.** Whatever code points the text holds and whatever follows the literal,
the text is read back, and reading stops right behind the literal. No control character stands in it. So
wherever a string may start, the lexer of Lua takes the literal for one token and goes on with what follows,
and a comment that holds the literal ends with its line and not before. -/
theorem quoted_delimits_itself (t rest : Text) :
    readQuoted (quoted t ++ rest) = some (t, rest) ∧
    (∀ p ∈ quoted t, 32 ≤ p.toNat ∧ p.toNat ≠ 127) ∧
    (∀ (tokens ended : List Token) (s : State), s.step (.char '"') = some (.quoted .double [] .plain, ended) →
      Reading.run ⟨tokens, s⟩ (quoted t ++ rest)
        = Reading.run ⟨tokens ++ ended ++ [.string (encodedText t)], .code⟩ rest) ∧
    ∀ (tokens : List Token), ∀ label ∈ commentLabels,
      Reading.run ⟨tokens, .code⟩ (label ++ quoted t ++ "\n" ++ rest) = Reading.run ⟨tokens, .code⟩ rest := by
  refine ⟨readQuoted_append t rest, fun p => visible_of_mem_quoted, ?_, ?_⟩
  · intro tokens ended s hstart
    rw [Reading.run_append, Reading.run_quotedText hstart, Option.bind_some]
  · intro tokens label hlabel
    rw [Reading.run_append, run_commentLine hlabel, Option.bind_some]

/-- A control character before a digit, and what would end the literal, its line or a comment. -/
theorem quoted_delimits_itself_hostile :
    let t := Text.ofString "\x011\"\\\n]]--"
    readQuoted (quoted t ++ "2\"") = some (t, Text.ofString "2\"") ∧
    (.char '\\' ∈ quoted t ∧ 32 ≤ (CodePoint.char '\\').toNat) ∧
    (State.step (.mark "(") (.char '"') = some (.quoted .double [] .plain, [.mark "("]) ∧
      Reading.run ⟨[], .mark "("⟩ (quoted t ++ ")")
        = some ⟨[.mark "(", .string [1, 49, 34, 92, 10, 93, 93, 45, 45]], .mark ")"⟩) ∧
    Reading.run ⟨[], .code⟩ ("-- Window: " ++ quoted t ++ "\n" ++ "x") = some ⟨[], .word "x"⟩ := by
  intro t
  have hmem : .char '\\' ∈ quoted t := by decide
  have hstart : State.step (.mark "(") (.char '"') = some (.quoted .double [] .plain, [.mark "("]) := rfl
  refine ⟨(quoted_delimits_itself t _).1, ⟨hmem, ((quoted_delimits_itself t []).2.1 _ hmem).1⟩, ⟨hstart, ?_⟩, ?_⟩
  · rw [(quoted_delimits_itself t _).2.2.1 [] _ _ hstart]
    decide
  · rw [(quoted_delimits_itself t _).2.2.2 [] _ (List.mem_cons_self : _ ∈ commentLabels)]
    decide

end GuiBuilder.Script
