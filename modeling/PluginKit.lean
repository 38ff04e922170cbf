import PluginKit.Bridge.ScriptContext
import PluginKit.Calendar.Format
import PluginKit.Fetch
import PluginKit.Main
import PluginKit.Proofs.Archive.Packed
import PluginKit.Proofs.Bridge.Loading
import PluginKit.Proofs.Bridge.Merged
import PluginKit.Proofs.Bridge.ObjectBlocks
import PluginKit.Proofs.Bridge.Results
import PluginKit.Proofs.Bridge.Triggers
import PluginKit.Proofs.Check.Completed
import PluginKit.Proofs.Package.ClassNames
import PluginKit.Proofs.Package.Literals
import PluginKit.Proofs.Package.Overwritten
import PluginKit.Proofs.Package.Rebuild
import PluginKit.Proofs.Package.Validated
import PluginKit.Proofs.Registrar.Contained
import PluginKit.Proofs.Registrar.Histories
import PluginKit.Proofs.Reply.Messages
import PluginKit.Proofs.Reply.Tools
import PluginKit.Proofs.Script.SafeNames
import PluginKit.Proofs.Template.Image
import PluginKit.Proofs.Template.Interview
import PluginKit.Value.Truncate
