import BasicCli.Alloc.Equiv.Requests
import BasicCli.Backtrace.Equiv.FnName
import BasicCli.CargoVersions.Equiv.Script
import BasicCli.ExposedFuns.Equiv.Report
import BasicCli.Command.Equiv.Builder
import BasicCli.Command.Equiv.Exec
import BasicCli.Console.Equiv.Boundary
import BasicCli.Console.Equiv.TwoHosts
import BasicCli.File.Equiv.Fills
import BasicCli.File.Equiv.Panics
import BasicCli.File.Equiv.ProcessLine
import BasicCli.Hosted.Equiv.Call
import BasicCli.Hosted.Equiv.DirList
import BasicCli.Hosted.Equiv.ValidUtf8
import BasicCli.Http.Equiv.Panics
import BasicCli.Http.Equiv.Request
import BasicCli.Http.Equiv.Response
import BasicCli.Main.Equiv.ExitStatus
import BasicCli.Path.Equiv.RoundTrip
import BasicCli.Process.Equiv.Environ
import BasicCli.Process.Equiv.Output
import BasicCli.Snake.Equiv.Game
import BasicCli.Snake.Equiv.Machine
import BasicCli.Snake.Equiv.Picture
import BasicCli.Sqlite.Equiv.Handles
import BasicCli.Sqlite.Equiv.OneThread
import BasicCli.Sqlite.Equiv.Strings
import BasicCli.Sqlite.Equiv.Values
import BasicCli.Stdin.Equiv.Lines
import BasicCli.Stdin.Equiv.Mixed
import BasicCli.ExposedFuns.Equiv.Report
import BasicCli.Ownership.Basic
import BasicCli.Run.Agree
import BasicCli.Sqlite.Equiv.Lifetime
import BasicCli.Sqlite.Equiv.Release
