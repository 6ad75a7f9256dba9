import GuiBuilder.Proofs.Assistant.Reply
import GuiBuilder.Proofs.Json.Limits
import GuiBuilder.Proofs.Session.Contents

/-!
# What the assistant answers

Whatever the service does, the assistant answers with a proposal, and with a window only if the reply
proposes it (`Assistant.Answers`). There is one exception. An object in the reply that asks more of the
reader of JSON than it takes on, by an integer of too many digits or by containers that are nested too
deeply, ends the call in a fault (`Assistant.Overtaxes`), although any other text that cannot be read as a
window is shown as it is. A reply without so many digits in a row and without so many containers is safe.
-/

namespace GuiBuilder

namespace Assistant

variable {t name : Text} {current w : Window} {fault : Fault} {depth : ℕ}

/-! ### Replies that cannot be read -/

/-- The object that spans a text asks more of the reader than it takes on, where containers may be nested `depth`
deep. -/
inductive Overtaxes (depth : ℕ) (t : Text) : Fault → Prop where
  /-- It has an integer of so many digits. -/
  | digits {object : Text} {n : ℕ} (hspans : Spans t object)
      (hread : Json.read depth object = .error (.oversizedInteger n)) : Overtaxes depth t (.oversizedInteger n)
  /-- It has this container nested too deeply. -/
  | depth {object : Text} {container : Json.Container} (hspans : Spans t object)
      (hread : Json.read depth object = .error (.tooDeep container)) : Overtaxes depth t (.tooDeep container)

/-- **Reading a reply fails exactly if the reply overtaxes the reader**, with the fault that says how. -/
theorem readReply_eq_error_iff (current : Window) :
    readReply depth t current = .error fault ↔ Overtaxes depth t fault := by
  constructor
  · intro h
    unfold readReply at h
    split at h
    · cases h
    · next hbraced =>
      have hspans : Spans t (braced t) := spans_iff.2 ⟨rfl, by simpa using hbraced⟩
      split at h
      · cases h
      · next n hread =>
        cases h
        exact .digits hspans hread
      · next container hread =>
        cases h
        exact .depth hspans hread
      · next fields hread =>
        split at h
        · split at h <;> cases h
        · cases h
      · cases h
  · intro h
    cases h with
    | digits hspans hread => rw [readReply, hspans.braced_eq, if_neg (by simpa using hspans.ne_nil), hread]
    | depth hspans hread => rw [readReply, hspans.braced_eq, if_neg (by simpa using hspans.ne_nil), hread]

theorem Spans.isInfix {object : Text} (h : Spans t object) : object <:+: t := by
  obtain ⟨before, inside, after, ht, -⟩ := h
  exact ⟨before, after, ht.symm⟩

/-- **A reply without many digits in a row and with few containers overtaxes no reader.** -/
theorem not_overtaxes (hdigits : ¬ t.HasDigits (Numeral.maxIntegerDigits + 1))
    (hdepth : t.countP CodePoint.opens ≤ depth) : ¬ Overtaxes depth t fault := by
  intro h
  cases h with
  | digits hspans hread =>
    obtain ⟨hn, hrun⟩ := Json.hasDigits_of_readWithin hread
    exact hdigits ((hrun.mono hn).of_isInfix hspans.isInfix)
  | depth hspans hread =>
    have hobject := Json.depth_lt_of_readWithin hread
    have hcount : _ ≤ t.countP CodePoint.opens := hspans.isInfix.sublist.countP_le
    exact absurd (hobject.trans_le hcount) (Nat.not_lt.2 hdepth)

/-! ### What a reply comes to -/

/-- The content of a reply as the service gives it: a text, or nothing. -/
def replyContent : Option Text → Value
  | some t => .text t
  | none => .null

/-- What is shown of a reply: its text, or a fallback when there is none. -/
def shownReply : Option Text → Text
  | some (p :: t) => p :: t
  | _ => emptyReply

theorem contentText_replyContent (content : Option Text) :
    contentText (replyContent content) = .ok (shownReply content) := by
  cases content with
  | none => rfl
  | some t => cases t <;> rfl

/-- What the assistant may answer to a reply, for a file of some name and window. -/
inductive Answers (depth : ℕ) (name : Text) (current : Window) (t : Text) : Proposal → Prop where
  /-- A checked window that the reply proposes. -/
  | window {w : Window} (h : Proposes depth t current w) (hchecked : ∃ v, Window.ofValue v = .ok w) :
      Answers depth name current t ⟨"I've updated \"" ++ name ++ "\" with real working logic!", some w, true⟩
  /-- The reply itself, where it proposes no window. -/
  | words (h : ∀ w, ¬ Proposes depth t current w) : Answers depth name current t ⟨t, none, true⟩

/-- A proposed window has passed the check. -/
theorem Proposes.exists_ofValue (h : Proposes depth t current w) (hcurrent : current.Encodable) :
    ∃ v, Window.ofValue v = .ok w := by
  obtain ⟨_, _, -, -, hw⟩ := h
  exact Window.exists_ofValue_iff.2 (hw.encodable hcurrent)

/-- What has been read of a reply is answered. -/
theorem answers_of_readReply {reading : Reading} (hcurrent : current.Encodable)
    (h : readReply depth t current = .ok reading) : Answers depth name current t (proposalOf name t reading) := by
  have hnone (hreading : ∀ w, reading ≠ .window w) (w : Window) : ¬ Proposes depth t current w := by
    intro hw
    rw [(readReply_eq_window_iff hcurrent).2 hw] at h
    exact hreading w (Except.ok.inj h).symm
  cases reading with
  | window w =>
    have hw := (readReply_eq_window_iff hcurrent).1 h
    exact .window hw (hw.exists_ofValue hcurrent)
  | words => exact .words (hnone nofun)
  | refused problems => exact .words (hnone nofun)

theorem proposeFor_answering (deployment request : Value) (content : Option Text) :
    proposeFor ⟨.answering (replyContent content), deployment, depth⟩ name current request
      = (readReply depth (shownReply content) current).map fun reading =>
        ⟨proposalOf name (shownReply content) reading,
          some (callFor ⟨.answering (replyContent content), deployment, depth⟩ name current request),
          reading.printed⟩ := by
  simp only [proposeFor, contentText_replyContent]

/-- Asking for a change of a checked file is asking for a change of its window. -/
theorem exists_propose_eq {data : Value} {file : File} (hfile : File.ofValue data = .ok file) :
    ∃ current, file.content = .window current ∧ current.Encodable ∧ ∀ (a : Assistant) (request : Value),
      a.propose file request = a.proposeFor file.name current request := by
  obtain ⟨current, hcontent, hcurrent⟩ := File.exists_window_of_ofValue hfile
  refine ⟨current, hcontent, hcurrent, fun a request => ?_⟩
  rw [propose, hcontent]

/-! ### Asking -/

/-- **The assistant fails to answer exactly where the reply overtaxes the reader.** -/
theorem propose_eq_error_iff {data : Value} {file : File} (hfile : File.ofValue data = .ok file)
    (deployment request : Value) (content : Option Text) :
    propose ⟨.answering (replyContent content), deployment, depth⟩ file request = .error fault ↔
      Overtaxes depth (shownReply content) fault := by
  obtain ⟨current, -, -, hpropose⟩ := exists_propose_eq hfile
  rw [hpropose, proposeFor_answering, ← readReply_eq_error_iff current]
  cases readReply depth (shownReply content) current with
  | ok reading => exact ⟨nofun, nofun⟩
  | error other => simp [Except.map]

/-- **The assistant answers with a proposal, and invents no window**, except to replies that overtax the
reader of JSON. Without a connection and when a call fails, it says so and proposes nothing. To a reply it
answers with a checked window that the reply proposes, or with the reply as it is, or the fallback in its
place. It ends in a fault exactly if the reply overtaxes the reader, and only a reply with more digits in a
row or with more openings of containers than the reader takes does. How deeply containers may be nested is left
open. -/
theorem propose_answers_unless_overtaxed {data : Value} {file : File} (hfile : File.ofValue data = .ok file)
    (deployment request : Value) (depth : ℕ) :
    ∃ current, file.content = .window current ∧
      propose ⟨.offline, deployment, depth⟩ file request = .ok ⟨⟨offlineReply, none, false⟩, none, []⟩ ∧
      (∀ message, ∃ call, propose ⟨.failing message, deployment, depth⟩ file request
        = .ok ⟨⟨"AI Error: " ++ message, none, false⟩, some call, []⟩) ∧
      ∀ content,
        ((∀ fault, ¬ Overtaxes depth (shownReply content) fault) →
          ∃ proposal call printed, propose ⟨.answering (replyContent content), deployment, depth⟩ file request
            = .ok ⟨proposal, some call, printed⟩ ∧
            Answers depth file.name current (shownReply content) proposal) ∧
        (∀ fault, propose ⟨.answering (replyContent content), deployment, depth⟩ file request = .error fault ↔
          Overtaxes depth (shownReply content) fault) ∧
        (¬ (shownReply content).HasDigits (Numeral.maxIntegerDigits + 1) →
          (shownReply content).countP CodePoint.opens ≤ depth →
          ∀ fault, ¬ Overtaxes depth (shownReply content) fault) := by
  obtain ⟨current, hcontent, hcurrent, hpropose⟩ := exists_propose_eq hfile
  refine ⟨current, hcontent, hpropose _ request, fun message => ⟨_, hpropose _ request⟩, fun content => ?_⟩
  refine ⟨fun hsafe => ?_, fun fault => propose_eq_error_iff hfile deployment request content,
    fun hdigits hdepth fault => not_overtaxes hdigits hdepth⟩
  cases hread : readReply depth (shownReply content) current with
  | error fault => exact absurd ((readReply_eq_error_iff current).1 hread) (hsafe fault)
  | ok reading =>
    rw [hpropose, proposeFor_answering, hread]
    exact ⟨_, _, _, rfl, answers_of_readReply hcurrent hread⟩

/-- A file with a button, as data. -/
def hubData : Value :=
  .object [("id", .text "1"), ("name", .text "hub.lua"), ("data", .object [("title", .text "Hub"),
    ("folders", .array [.object [("id", .text "f1"), ("text", .text "Tab"), ("elements", .array
      [.object [("type", .text "Button"), ("id", .text "b"), ("text", .text "Go")]])]])])]

/-- The file that the data stands for. -/
def hub : File := ⟨"1", "hub.lua", .window ⟨"Hub", [⟨"f1", "Tab", [⟨"b", "Go", none, .button⟩]⟩]⟩⟩

theorem ofValue_hubData : File.ofValue hubData = .ok hub := by
  rfl

/-- A reply with a word before an object. -/
def shortReply : Text := "Done: \x7b\"folders\": []\x7d"

/-- It is too short to overtax the reader, and so it is answered. -/
theorem propose_answers_unless_overtaxed_short : ∃ current proposal call printed,
    hub.content = .window current ∧
    propose ⟨.answering (.text shortReply), .text "gpt", 991⟩ hub (.text "Clear it.")
      = .ok ⟨proposal, some call, printed⟩ ∧
    Answers 991 "hub.lua" current shortReply proposal := by
  obtain ⟨current, hcontent, -, -, hreplies⟩ :=
    propose_answers_unless_overtaxed ofValue_hubData (.text "gpt") (.text "Clear it.") 991
  obtain ⟨hanswers, -, hsafe⟩ := hreplies (some shortReply)
  have hdigits : ¬ Text.HasDigits (Numeral.maxIntegerDigits + 1) (shownReply (some shortReply)) := by
    intro h
    exact absurd h.length_le (by decide)
  obtain ⟨proposal, call, printed, hpropose, hproposal⟩ := hanswers (hsafe hdigits (by decide))
  exact ⟨current, proposal, call, printed, hcontent, hpropose, hproposal⟩

/-- A reply without a window: an object with one field, an integer of the digit one so many times. -/
def longReply (count : ℕ) : Text :=
  "\x7b\"n\":" ++ (List.replicate count '1').map CodePoint.char ++ "\x7d"

theorem spans_longReply (count : ℕ) : Spans (longReply count) (longReply count) := by
  refine ⟨[], "\"n\":" ++ (List.replicate count '1').map CodePoint.char, [], ?_, rfl, ?_, ?_⟩
  · simp
  · simp
  · simp

theorem read_longReply {count : ℕ} (h : 4300 < count) (hdepth : 0 < depth) :
    Json.read depth (longReply count) = .error (.oversizedInteger count) := by
  have hreply : longReply count = .char '{' :: (Json.quoted Json.plainText "n" ++ .char ':' ::
      ((List.replicate count '1').map CodePoint.char ++ [.char '}'])) := by
    rw [longReply, List.append_assoc]
    rfl
  have hdigits : ∀ c ∈ List.replicate count '1', c.isDigit = true := by
    intro c hc
    rw [List.eq_of_mem_replicate hc]
    rfl
  have hzero : (List.replicate count '1').head? ≠ some '0' := by
    cases count <;> simp [List.replicate_succ]
  have hlong : (Json.Limits.ofDepth depth).digits < (List.replicate count '1').length := by
    rw [List.length_replicate]
    exact h
  have hread := Json.readWithin_oversized "n" hdigits hzero hlong hdepth
  rwa [List.length_replicate, ← hreply] at hread

/-- The assistant does not answer to it, whatever the file and the request. -/
theorem propose_longReply {data : Value} {file : File} (hfile : File.ofValue data = .ok file)
    (deployment request : Value) {count : ℕ} (h : 4300 < count) (hdepth : 0 < depth) :
    propose ⟨.answering (.text (longReply count)), deployment, depth⟩ file request
      = .error (.oversizedInteger count) := by
  have hshown : shownReply (some (longReply count)) = longReply count := rfl
  have hovertaxes : Overtaxes depth (shownReply (some (longReply count))) (.oversizedInteger count) := by
    rw [hshown]
    exact .digits (spans_longReply count) (read_longReply h hdepth)
  exact (propose_eq_error_iff hfile deployment request (some (longReply count))).2 hovertaxes

/-- One digit more than the reader takes is enough. -/
theorem propose_faults_on_long_integer :
    propose ⟨.answering (.text (longReply 4301)), .text "gpt", 991⟩ hub (.text "Clear it.")
      = .error (.oversizedInteger 4301) :=
  propose_longReply ofValue_hubData _ _ (by decide) (by decide)

end Assistant

end GuiBuilder
