import GuiBuilder.Text.Blank
import GuiBuilder.Text.Utf8
import GuiBuilder.Text.Printable
import GuiBuilder.Number.Layout
import GuiBuilder.Number.Numeral
import GuiBuilder.Value.Basic
import GuiBuilder.Json.Writer
import GuiBuilder.Json.Reader
import GuiBuilder.Value.Display
import GuiBuilder.Schema.Widget
import GuiBuilder.Widget.Canonical
import GuiBuilder.Script.Generate
import GuiBuilder.Analysis
import GuiBuilder.LineDiff
import GuiBuilder.Export
import GuiBuilder.Preferences
import GuiBuilder.Lineage
import GuiBuilder.Document
import GuiBuilder.Console
import GuiBuilder.Session.Basic
import GuiBuilder.Session.Edit
import GuiBuilder.Session.Files
import GuiBuilder.Session.Versions
import GuiBuilder.Session.Output
import GuiBuilder.Workbench
import GuiBuilder.Session.Command
import GuiBuilder.Storage.Disk
import GuiBuilder.Number.AnyScript
import GuiBuilder.Main
import GuiBuilder.Proofs.History.Refinement
import GuiBuilder.Proofs.LineDiff.EditScript
import GuiBuilder.Proofs.Session.OneStep
import GuiBuilder.Proofs.Script.ReadBack
import GuiBuilder.Proofs.Widget.RoundTrip
import GuiBuilder.Proofs.Json.ReadBack
import GuiBuilder.Proofs.Widget.Encodable
import GuiBuilder.Proofs.Session.Deletion
import GuiBuilder.Proofs.Session.Memo
import GuiBuilder.Proofs.Session.OpenTabs
import GuiBuilder.Proofs.History.Versions
import GuiBuilder.Proofs.Shelf.Ledger
import GuiBuilder.Proofs.Workbench.Reports
import GuiBuilder.Proofs.Widget.Patch
import GuiBuilder.Proofs.Session.OnePlace
import GuiBuilder.Proofs.Session.OneTab
import GuiBuilder.Proofs.Session.Stored
import GuiBuilder.Proofs.History.Scripts
import GuiBuilder.Proofs.Script.Reindent
import GuiBuilder.Proofs.LineDiff.Greedy
import GuiBuilder.Proofs.Widget.Overlay
import GuiBuilder.Proofs.Session.PatchSelected
import GuiBuilder.Proofs.Session.SelectElement
import GuiBuilder.Proofs.Session.Restore
import GuiBuilder.Proofs.Script.SelfDelimiting
import GuiBuilder.Proofs.Analysis.Report
import GuiBuilder.Proofs.Assistant.Reply
import GuiBuilder.Proofs.Json.Limits
import GuiBuilder.Proofs.Assistant.Proposal
import GuiBuilder.Proofs.Analysis.Balance
import GuiBuilder.Proofs.Session.Closing
import GuiBuilder.Proofs.Path.Inside
import GuiBuilder.Proofs.Session.Export
import GuiBuilder.Proofs.CommandLine.Verdict
import GuiBuilder.Proofs.LineDiff.Counts
import GuiBuilder.Proofs.LineDiff.Printed
import GuiBuilder.Proofs.Json.Spelling
import GuiBuilder.Proofs.Session.VersionDiff
import GuiBuilder.Proofs.Json.Readable
import GuiBuilder.Proofs.Json.Indented
import GuiBuilder.Proofs.Preferences.Saved
import GuiBuilder.Proofs.Script.Reordering
import GuiBuilder.Proofs.Widget.Decimals
import GuiBuilder.Proofs.Script.Complete
import GuiBuilder.Proofs.Json.Depth
import GuiBuilder.Proofs.Storage.Disk
