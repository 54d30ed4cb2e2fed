import NodeWebkit.Lib.Run
import NodeWebkit.Lib.Stopwatch
import NodeWebkit.Lib.JsArray
import NodeWebkit.Lib.JsObject
import NodeWebkit.Lib.JsRegExp
import NodeWebkit.Window.ListenerRuns
import NodeWebkit.Object.ObjectIdRuns
import NodeWebkit.Object.NestedPopups
import NodeWebkit.Object.NestedPopupRuns
import NodeWebkit.AutoUpdater.QuitAndInstall
import NodeWebkit.AutoUpdater.CommandRuns
import NodeWebkit.MediaRecorder.Stop
import NodeWebkit.MediaRecorder.Flush
import NodeWebkit.MediaRecorder.VideoPts
import NodeWebkit.MediaRecorder.LetterboxRuns
import NodeWebkit.MediaRecorder.Pause
import NodeWebkit.MediaRecorder.PlayingTime
import NodeWebkit.MediaRecorder.Reel
import NodeWebkit.MediaRecorder.LifecycleRuns
import NodeWebkit.MediaRecorder.ScriptRuns
import NodeWebkit.MediaRecorder.Delivery
import NodeWebkit.Menus.Mirrors
import NodeWebkit.Menus.MenuPointers
import NodeWebkit.Menus.WindowMenu
import NodeWebkit.Menus.KeyUpdates
import NodeWebkit.Menus.ModelAgreement
import NodeWebkit.Menus.AcceleratorRuns
import NodeWebkit.Menus.KeyGraph
import NodeWebkit.Menus.MenuBarButtons
import NodeWebkit.Menus.SiblingControllers
import NodeWebkit.Content.InjectedScripts
import NodeWebkit.Shortcuts.HotKeyRuns
import NodeWebkit.Shortcuts.KeyGrammar
import NodeWebkit.App.RejectedRequests
import NodeWebkit.Clipboard.SetListSync
import NodeWebkit.Package.FullArgv
import NodeWebkit.Package.Atomic
import NodeWebkit.Package.Window
import NodeWebkit.Content.Migration
import NodeWebkit.Content.NewWindow
import NodeWebkit.Options.Assignment
import NodeWebkit.Options.EditMenu
import NodeWebkit.Options.SharedOptions
import NodeWebkit.MediaRecorder.SampleRate
import NodeWebkit.Content.ReloadKeepAlive
import NodeWebkit.Content.AppEvents
import NodeWebkit.Tray.Removal
import NodeWebkit.Package.ChromiumArgs
import NodeWebkit.Content.UserAgent
import NodeWebkit.Payload.ContentHashes
import NodeWebkit.Payload.CreateHashes
import NodeWebkit.Content.LoadApp
import NodeWebkit.Content.NavigationPolicy
import NodeWebkit.Clipboard.GetListSync
import NodeWebkit.Screen.CaptureMonitor
import NodeWebkit.Content.NodeContexts
import NodeWebkit.Menus.ViewLayout
import NodeWebkit.Menus.Clicks
