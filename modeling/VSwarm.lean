import VSwarm.Lib.Reactive
import VSwarm.Lib.Interaction
import VSwarm.Lib.Transition
import VSwarm.Lib.Text
import VSwarm.Lib.Shell
import VSwarm.Lib.FileSystem
import VSwarm.Lib.Listing
import VSwarm.Lib.FileTree
import VSwarm.Lib.OrderedDict
import VSwarm.Lib.Segments
import VSwarm.Lib.Interleave
import VSwarm.Lib.Regions
import VSwarm.Defs.Client.Main
import VSwarm.Defs.Client.MainLaws
import VSwarm.Defs.Client.MainLog
import VSwarm.Defs.RunSim.Controller
import VSwarm.Defs.RunSim.ControllerLaws
import VSwarm.Defs.RunSim.Evaluation
import VSwarm.Defs.RunSim.Ending
import VSwarm.Defs.RunSim.Script
import VSwarm.Defs.RunSim.TwoMachine
import VSwarm.Defs.Analysis.CheckSimulations
import VSwarm.Defs.Analysis.ReadStats
import VSwarm.Defs.Analysis.StatLines
import VSwarm.Defs.Analysis.FindStats
import VSwarm.Defs.Analysis.ToPandas
import VSwarm.Defs.Analysis.ScanResults
import VSwarm.Defs.RunSim.Log
import VSwarm.Defs.Simple.Handlers
import VSwarm.Defs.Simple.Evaluation
import VSwarm.Defs.Simple.Setup
import VSwarm.Defs.Test.EmuTest
import VSwarm.Defs.Test.SimTest
import VSwarm.Defs.Install.InstallFunctions
import VSwarm.Defs.Install.FunctionsList
import VSwarm.Defs.Resources.Artifacts
import VSwarm.Defs.Resources.ArtifactsLaws
import VSwarm.Defs.Resources.Decompress
import VSwarm.Defs.Resources.Reassembly
import VSwarm.Defs.Resources.UploadAssets
import VSwarm.Defs.Resources.GetRelease
import VSwarm.Defs.Resources.Upload
import VSwarm.Defs.Resources.DownloadDisk
import VSwarm.Defs.Resources.Versions
import VSwarm.Defs.Systems.Interleaving
import VSwarm.Defs.Systems.AddressMap
import VSwarm.Lib.Csv
import VSwarm.Lib.Meter
import VSwarm.Defs.Analysis.ParseResult
import VSwarm.Defs.Analysis.ToCsv
import VSwarm.Defs.Analysis.Rerun
import VSwarm.Defs.Simple.Arm
import VSwarm.Defs.Client.M5Ops
import VSwarm.Defs.Systems.Routing
import VSwarm.Defs.Systems.Wiring
import VSwarm.Defs.RunSim.CpuSwitch
import VSwarm.Defs.RunSim.Campaign
import VSwarm.Defs.RunSim.Measured
