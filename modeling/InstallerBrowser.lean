import InstallerBrowser.Action.Keys
import InstallerBrowser.Browser.Run
import InstallerBrowser.Browser.View
import InstallerBrowser.CommandLine
import InstallerBrowser.Dialog.InputField
import InstallerBrowser.Dialog.Keys
import InstallerBrowser.Dialog.Place
import InstallerBrowser.Main
import InstallerBrowser.Measure
import InstallerBrowser.Options.Drift
import InstallerBrowser.Options.Text
import InstallerBrowser.Panel.CommandBar
import InstallerBrowser.Panel.Dialog
import InstallerBrowser.Panel.Info
import InstallerBrowser.Panel.Log
import InstallerBrowser.Panel.Queue
import InstallerBrowser.Panel.StatusBar
import InstallerBrowser.Panel.Tree
import InstallerBrowser.Panel.Warning
import InstallerBrowser.Proofs.Browser.AddFile
import InstallerBrowser.Proofs.Browser.Adding
import InstallerBrowser.Proofs.Browser.Cursor
import InstallerBrowser.Proofs.Browser.Enabled
import InstallerBrowser.Proofs.Browser.Focus
import InstallerBrowser.Proofs.Browser.Frozen
import InstallerBrowser.Proofs.Browser.Inquiry
import InstallerBrowser.Proofs.Browser.Loaded
import InstallerBrowser.Proofs.Browser.LogOptions
import InstallerBrowser.Proofs.Browser.Notice
import InstallerBrowser.Proofs.Browser.Quitting
import InstallerBrowser.Proofs.Browser.Scrolling
import InstallerBrowser.Proofs.Browser.Tracking
import InstallerBrowser.Proofs.Dialog.LineEdit
import InstallerBrowser.Proofs.Engine.CallLine
import InstallerBrowser.Proofs.Engine.Pairing
import InstallerBrowser.Proofs.Engine.Reading
import InstallerBrowser.Proofs.Engine.Replies
import InstallerBrowser.Proofs.Log
import InstallerBrowser.Proofs.Panel.InputDialog
import InstallerBrowser.Proofs.Panel.MessageDialog
import InstallerBrowser.Proofs.Queue
import InstallerBrowser.Proofs.Screen.Canvas
import InstallerBrowser.Proofs.Screen.Layout
import InstallerBrowser.Proofs.Session.AbortSignal
import InstallerBrowser.Proofs.Session.Endings
import InstallerBrowser.Proofs.Session.Installer
import InstallerBrowser.Proofs.Session.Lifecycle
import InstallerBrowser.Proofs.Session.Phase
import InstallerBrowser.Proofs.Session.Refusal
import InstallerBrowser.Proofs.Session.Transitions
import InstallerBrowser.Proofs.Storage.Series
import InstallerBrowser.Proofs.Text.Truncate
import InstallerBrowser.Proofs.Tree.Cycles
import InstallerBrowser.Proofs.Tree.Derivation
import InstallerBrowser.Proofs.Tree.Listing
import InstallerBrowser.Proofs.Tree.Loops
import InstallerBrowser.Proofs.Tree.Request
import InstallerBrowser.Screen.Frame
import InstallerBrowser.Screen.Layout
import InstallerBrowser.Screen.Paragraph
import InstallerBrowser.Screen.Transcript
import InstallerBrowser.Session.Run
import InstallerBrowser.Text.Grapheme
import InstallerBrowser.Text.Truncate
import InstallerBrowser.Proofs.Queue
