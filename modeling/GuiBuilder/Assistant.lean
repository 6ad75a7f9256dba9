import GuiBuilder.Fault
import GuiBuilder.Json.Reader
import GuiBuilder.Value.Display
import GuiBuilder.Value.Equality
import GuiBuilder.Widget.Canonical

/-!
# The assistant

The assistant is a chat model that is shown the window of a file and asked for a change. If its
reply holds a JSON object with folders, the object is read as a new window, and what the object
does not say is taken from the current one; any other reply is an answer in words. Without a
connection, or when a call fails, the reply says so and proposes nothing.
-/

namespace GuiBuilder

/-- What came of asking the assistant. -/
structure Proposal where
  reply : Text
  window : Option Window
  /-- Whether the reply comes from the model. -/
  generated : Bool
deriving DecidableEq

/-- What the service answers to a call. -/
inductive Assistant.Service where
  /-- There is no connection. -/
  | offline
  /-- A call fails with this message. -/
  | failing (message : Text)
  /-- A call answers. The content should be a text, and may be missing. -/
  | answering (content : Value)
deriving DecidableEq

/-- An assistant: the service behind it, and the deployment of the model. -/
structure Assistant where
  service : Assistant.Service
  deployment : Value
  /-- How deeply containers may be nested in the JSON of a reply. -/
  depth : Nat

namespace Assistant

/-! ### Reading a reply -/

/-- The part of a text from its first opening to its last closing brace; empty when there is no
such part. -/
def braced (t : Text) : Text :=
  let tail := t.dropWhile fun p => decide (p ≠ .char '{')
  (tail.reverse.dropWhile fun p => decide (p ≠ .char '}')).reverse

/-- What a reply holds. -/
inductive Reading where
  /-- No object with folders. -/
  | words
  /-- A window. -/
  | window (w : Window)
  /-- An object with folders that is no window, for this many problems. -/
  | refused (problems : Nat)
deriving DecidableEq

/-- Whether an object has an array of folders. -/
def hasFolders (fields : Fields) : Bool :=
  match Fields.get? (Field.folders.spelled .json) fields with
  | some (.array _) => true
  | _ => false

/-- The fields of an object, and those of the current window that it does not have. -/
def completed (current : Window) (fields : Fields) : Fields :=
  Fields.merge (spellFields .json (current.fields .json)) fields

/-- Reads a reply as a change of the current window, where containers may be nested `depth` deep. -/
def readReply (depth : Nat) (t : Text) (current : Window) : Except Fault Reading :=
  if (braced t).isEmpty then .ok .words
  else match Json.read depth (braced t) with
    | .error (.malformed ..) => .ok .words
    | .error (.oversizedInteger digits) => .error (.oversizedInteger digits)
    | .error (.tooDeep container) => .error (.tooDeep container)
    | .ok (.object fields) =>
      if hasFolders fields then
        match Window.ofValue (.object (completed current fields)) with
        | .ok w => .ok (.window w)
        | .rejected problems => .ok (.refused problems.length)
      else .ok .words
    | .ok _ => .ok .words

namespace Reading

/-- The window that was read. -/
def window? : Reading → Option Window
  | window w => some w
  | _ => none

/-- What is printed about a reply: only that a window was refused. -/
def printed : Reading → Text
  | refused problems => "AI Proposal Rejected: " ++ Text.ofNat problems ++ " validation errors\n"
  | _ => []

end Reading

/-! ### Asking -/

/-- What the model is told about a file of some name and window before the request. -/
def systemPrompt (name : Text) (w : Window) : Text :=
  "\nYou are an expert Roblox Lua Scripter and UI Designer.\n\nTARGET CONTEXT:\nFile Name: "
    ++ name ++ "\nCurrent UI JSON: " ++ w.canonical
    ++ "\n\nCRITICAL RULES:\n"
    ++ "1. REAL LOGIC ONLY: Do NOT use comments like \"-- insert logic here\". Write the actual Roblox Lua code.\n"
    ++ "2. PERSISTENCE: Put the Lua code inside the \"customLogic\" field of the element.\n"
    ++ "3. UI UPDATES: Return JSON with a \"folders\" array to update the UI structure.\n"
    ++ "   Elements have \"type\" (Button, Toggle, Slider, Dropdown), \"id\", \"text\" and their own fields\n"
    ++ "   (Toggle: flag, defaultState; Slider: flag, min, max, value, decimals; Dropdown: flag, values).\n"
    ++ "\nIf the user just asks a question, answer in text. If they ask for UI/Features, return JSON.\n"

/-- A call of the service: messages with their roles, for a deployment of the model. -/
structure Call where
  deployment : Value
  messages : List (String × Value)

/-- A proposal, with the call that was made for it and what was printed. -/
structure Consultation where
  proposal : Proposal
  call : Option Call
  printed : Text

/-- The reply without a connection. -/
def offlineReply : String :=
  "AI Offline. Configure Azure OpenAI credentials to use the assistant."

/-- The reply when the model answers without a content. -/
def emptyReply : String := "I couldn't generate a response."

/-- The text that a content of the model stands for. -/
def contentText (content : Value) : Except Fault Text :=
  match content with
  | .text (p :: t) => .ok (p :: t)
  | v => if v.isGiven then .error (.contentNotText v.kindWord) else .ok emptyReply

/-- The call for a change of the window of a file. -/
def callFor (a : Assistant) (name : Text) (w : Window) (request : Value) : Call :=
  ⟨a.deployment, [("system", .text (systemPrompt name w)), ("user", request)]⟩

/-- The proposal that a reply of the model makes for a file of some name. -/
def proposalOf (name : Text) (text : Text) (reading : Reading) : Proposal :=
  match reading with
  | .window w => ⟨"I've updated \"" ++ name ++ "\" with real working logic!", some w, true⟩
  | _ => ⟨text, none, true⟩

/-- Asks for a change of the window of a file. -/
def proposeFor (a : Assistant) (name : Text) (w : Window) (request : Value) :
    Except Fault Consultation :=
  match a.service with
  | .offline => .ok ⟨⟨offlineReply, none, false⟩, none, []⟩
  | .failing message =>
    .ok ⟨⟨"AI Error: " ++ message, none, false⟩, some (callFor a name w request), []⟩
  | .answering content =>
    match contentText content with
    | .error f => .error f
    | .ok text =>
      (readReply a.depth text w).map fun reading =>
        ⟨proposalOf name text reading, some (callFor a name w request), reading.printed⟩

/-- Asks for a change of a file. Without a connection it does not matter what the file holds. -/
def propose (a : Assistant) (file : File) (request : Value) : Except Fault Consultation :=
  match file.content with
  | .window w => a.proposeFor file.name w request
  | .data .. =>
    if a.service = .offline then .ok ⟨⟨offlineReply, none, false⟩, none, []⟩
    else .error .noWindow

/-! ### Connecting -/

/-- Where and how the assistant connects. -/
structure Connection where
  key : Value
  endpoint : Value
  version : Value
  deployment : Value
  online : Bool

/-- What came of connecting: the connection, whether the service was called, and what was
printed. -/
structure Connected where
  connection : Connection
  called : Bool
  printed : Text

/-- The version of the service that is used unless told otherwise. -/
def defaultVersion : String := "2024-02-15-preview"

/-- Connects if there is a key and an endpoint. `refusal?` is the message with which the service
refuses a connection, if it does. -/
def connect (refusal? : Connection → Option Text) (c : Connection) : Connected :=
  if c.key.isGiven && c.endpoint.isGiven then
    match refusal? c with
    | some message =>
      ⟨{ c with online := false }, true, "AI Connection Failed: " ++ message ++ "\n"⟩
    | none =>
      ⟨{ c with online := true }, true,
        "AI Client Initialized (" ++ c.deployment.display ++ ").\n"⟩
  else ⟨{ c with online := false }, false, []⟩

/-- Connects with another key and endpoint, and another deployment if one is given. -/
def reconnect (refusal? : Connection → Option Text) (c : Connection)
    (key endpoint deployment : Value) : Connected :=
  let deployment := if deployment.isGiven then deployment else c.deployment
  connect refusal? { c with key := key, endpoint := endpoint, deployment := deployment }

/-- Connects as some arguments say: a key, an endpoint and possibly a deployment. There has to be a
connection already. -/
def configure (refusal? : Connection → Option Text) (c : Option Connection) (arguments : List Value) :
    Except Fault Connected :=
  match c, arguments with
  | none, _ => .error .neverConnected
  | some c, [key, endpoint] => .ok (reconnect refusal? c key endpoint .null)
  | some c, [key, endpoint, deployment] => .ok (reconnect refusal? c key endpoint deployment)
  | some _, _ => .error .wrongArguments

end Assistant

end GuiBuilder
