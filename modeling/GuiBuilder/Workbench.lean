import GuiBuilder.Assistant
import GuiBuilder.Session.Files
import GuiBuilder.Session.Output
import GuiBuilder.Shelf

/-!
# Background tasks and their reports

Slow work runs beside the session: asking the assistant, saving a script. Tasks wait for a worker, which
takes them one after the other. A task ends in one report, which waits in a queue until the session
processes it. Reports are processed in the order in which they came, and a proposal is applied like any
other edit. The session counts as busy from the start of a task until a report has been processed.

A report may also come from elsewhere as loosely typed data. One that makes no sense ends
processing in a fault: it is lost, and those behind it stay in the queue.
-/

namespace GuiBuilder

/-- What came of a task. -/
inductive Report where
  /-- The assistant proposes a window for a file. -/
  | proposal (file : Text) (window : Window) (reply : Text)
  /-- The assistant answers in words. -/
  | reply (text : Text)
  /-- A script was saved. -/
  | saved (message : Text)
  /-- The task failed. -/
  | failed (message : Text)
  /-- Data from elsewhere. -/
  | data (v : Value)

/-- Slow work. It knows nothing but what it was given when it was added. -/
inductive Task where
  /-- An engine, if there is one, is asked for a change of a file. It may fail with a message. -/
  | propose (engine : Option (File → Value → Except Text Proposal)) (file : File) (request : Value)
  /-- A content is saved under a name in a store, if there is one. It may fail with a message. -/
  | save (store : Option (Value → Content → Except Text SavedScript)) (name : Value) (content : Content)
  /-- A task of some name fails with a message. -/
  | failing (name message : Text)

/-- The report in which a task ends. -/
def Task.report : Task → Report
  | propose none _ _ => .failed "'NoneType' object has no attribute 'propose_edit'"
  | propose (some engine) file request =>
    match engine file request with
    | .error message => .failed message
    | .ok proposal =>
      match proposal.window with
      | some w => .proposal file.id w proposal.reply
      | none => .reply proposal.reply
  | save none _ _ => .failed "'NoneType' object has no attribute 'save_script'"
  | save (some store) name content =>
    match store name content with
    | .error message => .failed message
    | .ok script => .saved ("Saved \"" ++ script.name ++ "\" to local history.")
  | failing name message => .failed (name ++ ": " ++ message)

/-- A session with the tasks and reports that wait, and the shelf of saved scripts. -/
structure Workbench where
  session : Session
  /-- The tasks that wait for the worker, oldest first. -/
  waiting : List Task
  /-- The reports that wait to be processed, oldest first. -/
  queue : List Report
  shelf : Shelf

/-- The role of the assistant in the chat. -/
def assistantRole : String := "model"

namespace Session

/-- The session after a message of the assistant. -/
def hear (s : Session) (text : Value) : Session :=
  { s with chat := s.chat ++ [⟨assistantRole, text⟩] }

/-- The session after a report: no longer busy. -/
def rest (s : Session) : Session := { s with busy := false }

/-- A log entry whose message may be no text. -/
def logValue (s : Session) (level : Level) (message : Value) : Outcome Unit :=
  match LogEntry.ofValues (.text level.name) message with
  | .error r => s.fault (.rejected r)
  | .ok e => (s.log e.level e.message).answer ()

/-- Processes a proposal that comes as data. What it has in the place of a window is put into the
file without a check. -/
def processProposal (s : Session) (fields : Fields) : Outcome Unit :=
  match Fields.get? "file_id" fields, Fields.get? "window" fields with
  | none, _ => s.fault (.missingKey "file_id")
  | some _, none => s.fault (.missingKey "window")
  | some id, some window =>
    (s.applyContent id (.data window (s.history.pushes + 1))).andThen fun s success =>
      match Fields.get? "reply" fields with
      | none => s.fault (.missingKey "reply")
      | some reply =>
        let logged := if success then s.logValue .success reply else s.answer ()
        logged.andThen fun s _ => (s.hear reply).rest.answer ()

/-- Processes a report that comes as data. -/
def processData (s : Session) (v : Value) : Outcome Unit :=
  match v with
  | .object fields =>
    let data := Fields.get? "data" fields
    match (Fields.get? "type" fields).bind fun t => t.text?.bind Text.toString? with
    | some "ERROR" =>
      match data with
      | none => s.fault (.missingKey "data")
      | some v => (s.log .error ("ERROR: " ++ v.display)).rest.answer ()
    | some "PROPOSAL_READY" =>
      match data with
      | some (.object proposal) => s.processProposal proposal
      | _ => s.fault .proposalNotObject
    | some "REPLY" => (s.hear (data.getD .null)).rest.answer ()
    | some "SAVE_COMPLETE" =>
      (s.logValue .success (data.getD .null)).andThen fun s _ => s.rest.answer ()
    | _ => s.answer ()
  | _ => s.fault .resultNotObject

/-- Processes one report. -/
def process (s : Session) : Report → Outcome Unit
  | .proposal file window reply =>
    (s.applyWindow (.text file) window).andThen fun s success =>
      let s := if success then s.log .success reply else s
      (s.hear (.text reply)).rest.answer ()
  | .reply text => (s.hear (.text text)).rest.answer ()
  | .saved message => (s.log .success message).rest.answer ()
  | .failed message => (s.log .error ("ERROR: " ++ message)).rest.answer ()
  | .data v => s.processData v

/-- Processes reports in order, up to one that ends in a fault; those behind it are left. -/
def processAll (s : Session) : List Report → Outcome Unit × List Report
  | [] => (s.answer (), [])
  | r :: rest =>
    match s.process r with
    | ⟨s, .ok _⟩ => s.processAll rest
    | ⟨s, .error f⟩ => (s.fault f, rest)

end Session

namespace Workbench

/-- A session with nothing waiting and an empty shelf. -/
def start (s : Session) : Workbench := ⟨s, [], [], .empty Shelf.defaultLimit⟩

/-- The workbench with another session. -/
def withSession (b : Workbench) (s : Session) : Workbench := { b with session := s }

/-- The workbench with one more task. -/
def addTask (b : Workbench) (t : Task) : Workbench :=
  { b with session := { b.session with busy := true }, waiting := b.waiting ++ [t] }

/-- The worker takes the oldest task to its end. -/
def work (b : Workbench) : Workbench :=
  match b.waiting with
  | [] => b
  | t :: rest => { b with waiting := rest, queue := b.queue ++ [t.report] }

/-- The workbench after a task that has ended in a report. -/
def finish (b : Workbench) (r : Report) : Workbench :=
  { b with session := { b.session with busy := true }, queue := b.queue ++ [r] }

/-- An assistant as an engine of proposals. -/
def engine (a : Assistant) (file : File) (request : Value) : Except Text Proposal :=
  match a.propose file request with
  | .ok c => .ok c.proposal
  | .error f => .error f.message

/-- What is printed while an assistant is asked for a change of a file. -/
def printedBy (a : Assistant) (file : File) (request : Value) : Text :=
  match a.propose file request with
  | .ok c => c.printed
  | .error _ => []

/-- A shelf as a store in which the next script is saved under an id. -/
def store (shelf : Shelf) (id : Text) (name : Value) (content : Content) : Except Text SavedScript :=
  match (shelf.save id name content).2 with
  | .ok script => .ok script
  | .error f => .error f.message

/-- Asks the assistant, if there is one, for a change of the active file. The answer is what was
printed. -/
def propose (b : Workbench) (assistant : Option Assistant) (request : Value) :
    Workbench × Except Fault Text :=
  match b.session.activeFile? with
  | none => (b, .error .noFile)
  | some file =>
    ((b.addTask (.propose (assistant.map engine) file request)).work,
      .ok ((assistant.map fun a => printedBy a file request).getD []))

/-- Saves the window of the active file on the shelf. -/
def saveScript (b : Workbench) (name : Value) : Workbench × Except Fault Unit :=
  match b.session.activeFile? with
  | none => (b, .error .noFile)
  | some file =>
    let id := b.session.ids.next
    let saved : Workbench :=
      { b with session := b.session.drawId, shelf := (b.shelf.save id name file.content).1 }
    ((saved.addTask (.save (some (store b.shelf id)) name file.content)).work, .ok ())

/-- Runs a task of some name that fails with a message. -/
def runFailing (b : Workbench) (name message : Text) : Workbench :=
  (b.addTask (.failing name message)).work

/-- Processes the reports that wait. -/
def processReports (b : Workbench) : Workbench × Except Fault Unit :=
  let (outcome, rest) := b.session.processAll b.queue
  ({ b with session := outcome.session, queue := rest }, outcome.result)

/-- The saved scripts, newest first. -/
def scripts (b : Workbench) : Workbench × Except Fault (List SavedScript) :=
  let (shelf, result) := b.shelf.list
  ({ b with shelf := shelf }, result)

/-- Opens a saved script in a new tab. -/
def openScript (b : Workbench) (id : Value) : Workbench × Except Fault (Option File) :=
  let (shelf, found) := b.shelf.get id
  let b : Workbench := { b with shelf := shelf }
  match found with
  | .error f => (b, .error f)
  | .ok none => (b, .ok none)
  | .ok (some script) =>
    let outcome := b.session.openWindow script.window (.text script.name)
    (b.withSession outcome.session, outcome.result.map some)

/-- Takes a saved script away. -/
def deleteScript (b : Workbench) (id : Value) : Workbench × Except Fault Bool :=
  let (shelf, result) := b.shelf.delete id
  ({ b with shelf := shelf }, result)

end Workbench

end GuiBuilder
