import GuiBuilder.Number.Numeral
import GuiBuilder.Script.Literal
import Mathlib.Tactic.Common

/-!
# Reading text literals

`readQuoted` reads a text literal off the front of a text, as a script's own lexer does: an escape
is a backslash with a letter, a quote, a backslash or up to three decimal digits, taken greedily; a
line that ends inside the literal is an error. What `quoted` writes is read back whole, whatever
follows it (`readQuoted_append`), and holds no control characters (`visible_of_mem_quoted`), so it
stays on its line.
-/

namespace GuiBuilder

namespace Script

/-- The code point that an escape stands for, given what follows the backslash, and how many code
points the escape takes. -/
def escape? (t : Text) : Option (CodePoint × ℕ) :=
  match t with
  | .char '\\' :: _ => some (.char '\\', 1)
  | .char '"' :: _ => some (.char '"', 1)
  | .char 'n' :: _ => some (.char '\n', 1)
  | .char 'r' :: _ => some (.char '\r', 1)
  | .char 't' :: _ => some (.char '\t', 1)
  | t =>
    let digits := (Text.spanDigits (t.take 3)).1
    if digits.isEmpty then none
    else (CodePoint.ofNat? (digitsValue digits)).map fun p => (p, digits.length)

/-- The text before the closing quote of a literal, and what follows the quote. -/
def readInside : Text → Option (Text × Text)
  | [] => none
  | .char '"' :: rest => some ([], rest)
  | .char '\n' :: _ => none
  | .char '\\' :: rest =>
    match escape? rest with
    | none => none
    | some (p, n) => (readInside (rest.drop n)).map fun (t, rest) => (p :: t, rest)
  | p :: rest => (readInside rest).map fun (t, rest) => (p :: t, rest)
termination_by t => t.length
decreasing_by all_goals simp only [List.length_drop, List.length_cons]; omega

/-- The text of a literal at the front of a text, and what follows it. -/
def readQuoted : Text → Option (Text × Text)
  | .char '"' :: rest => readInside rest
  | _ => none

/-! ### Reading goes forward -/

theorem length_lt_of_readInside {t s rest : Text} (h : readInside t = some (s, rest)) :
    rest.length < t.length := by
  fun_induction readInside t generalizing s rest with
  | case1 => cases h
  | case2 =>
    cases h
    exact Nat.lt_succ_self _
  | case3 => cases h
  | case4 => cases h
  | case5 tail p n _ ih =>
    obtain ⟨⟨s', r⟩, hr, hs⟩ := Option.map_eq_some_iff.1 h
    cases hs
    have hlt := ih hr
    rw [List.length_drop] at hlt
    rw [List.length_cons]
    omega
  | case6 p tail _ _ _ ih =>
    obtain ⟨⟨s', r⟩, hr, hs⟩ := Option.map_eq_some_iff.1 h
    cases hs
    exact Nat.lt_succ_of_lt (ih hr)

theorem length_lt_of_readQuoted {t s rest : Text} (h : readQuoted t = some (s, rest)) :
    rest.length < t.length := by
  unfold readQuoted at h
  split at h
  · exact Nat.lt_succ_of_lt (length_lt_of_readInside h)
  · cases h

/-! ### What `quoted` writes -/

theorem digit?_digitChar : ∀ d < 10, (CodePoint.char (Nat.digitChar d)).digit? = some d := by
  decide

/-- Three digits are the escape of their number. -/
theorem escape?_threeDigits {n : ℕ} (hn : n < 128) (rest : Text) :
    escape? ((threeDigits n).map CodePoint.char ++ rest) = (CodePoint.ofNat? n).map fun p => (p, 3) := by
  have ha := digit?_digitChar (n / 100 % 10) (Nat.mod_lt _ (by decide))
  have hb := digit?_digitChar (n / 10 % 10) (Nat.mod_lt _ (by decide))
  have hc := digit?_digitChar (n % 10) (Nat.mod_lt _ (by decide))
  have hvalue : digitsValue [n / 100 % 10, n / 10 % 10, n % 10] = n := by
    simp only [digitsValue, List.foldl_cons, List.foldl_nil]
    omega
  simp only [threeDigits, List.map_cons, List.map_nil, List.cons_append, List.nil_append]
  generalize Nat.digitChar (n / 100 % 10) = a at ha ⊢
  generalize Nat.digitChar (n / 10 % 10) = b at hb ⊢
  generalize Nat.digitChar (n % 10) = c at hc ⊢
  unfold escape?
  split
  iterate 5
    · next heq =>
      -- a digit is none of the letters and marks of an escape
      rw [List.cons.injEq] at heq
      rw [heq.1] at ha
      exact absurd ha (by simp [CodePoint.digit?])
  · simp [Text.spanDigits, ha, hb, hc, hvalue]

/-- The lexer takes back what is written for one code point. -/
theorem readInside_escaped (p : CodePoint) (rest : Text) :
    readInside (escaped p ++ rest) = (readInside rest).map fun (t, rest) => (p :: t, rest) := by
  unfold escaped
  split
  · simp [readInside, escape?]
  · simp [readInside, escape?]
  · simp [readInside, escape?]
  · simp [readInside, escape?]
  · simp [readInside, escape?]
  · next hslash hquote hfeed _ _ =>
    split
    · next hcontrol =>
      rw [List.cons_append, readInside, escape?_threeDigits (by omega), CodePoint.ofNat?_toNat]
      simp [threeDigits]
    · rw [List.singleton_append, readInside]
      · exact fun e => hquote e
      · exact fun e => hfeed e
      · exact fun e => hslash e

/-- **A literal is read back whole**, and reading stops at what follows it. -/
theorem readQuoted_append (t rest : Text) : readQuoted (quoted t ++ rest) = some (t, rest) := by
  rw [quoted, List.cons_append, List.cons_append, List.append_assoc, readQuoted]
  induction t with
  | nil => simp [readInside]
  | cons p t ih => rw [List.flatMap_cons, List.append_assoc, readInside_escaped, ih, Option.map_some]

/-! ### Literals stay on their line -/

theorem digitChar_visible : ∀ d < 10, 32 ≤ (Nat.digitChar d).toNat ∧ (Nat.digitChar d).toNat ≠ 127 := by
  decide

theorem visible_of_mem_escaped {p q : CodePoint} (h : q ∈ escaped p) : 32 ≤ q.toNat ∧ q.toNat ≠ 127 := by
  unfold escaped at h
  split at h
  iterate 5
    · rw [List.mem_cons, List.mem_singleton] at h
      rcases h with rfl | rfl <;> decide
  · split at h
    · simp only [threeDigits, List.map_cons, List.map_nil, List.mem_cons, List.not_mem_nil, or_false] at h
      rcases h with rfl | rfl | rfl | rfl
      · decide
      · exact digitChar_visible _ (Nat.mod_lt _ (by decide))
      · exact digitChar_visible _ (Nat.mod_lt _ (by decide))
      · exact digitChar_visible _ (Nat.mod_lt _ (by decide))
    · next hvisible =>
      rw [List.mem_singleton] at h
      subst h
      exact ⟨Nat.not_lt.1 fun hlt => hvisible (.inl hlt), fun hdel => hvisible (.inr hdel)⟩

/-- No control character of ASCII stands in a literal. -/
theorem visible_of_mem_quoted {t : Text} {q : CodePoint} (h : q ∈ quoted t) :
    32 ≤ q.toNat ∧ q.toNat ≠ 127 := by
  rw [quoted, List.mem_append, List.mem_cons, List.mem_flatMap, List.mem_singleton] at h
  rcases h with (rfl | ⟨p, -, hq⟩) | rfl
  · decide
  · exact visible_of_mem_escaped hq
  · decide

theorem lineFeed_not_mem_quoted (t : Text) : .char '\n' ∉ quoted t :=
  fun h => absurd (visible_of_mem_quoted h).1 (by decide)

end Script

end GuiBuilder
