import Verdiff.Queue.Statements
import Verdiff.Results.Memory
import Verdiff.Results.Statements
import Verdiff.Arena
import Verdiff.Arena.Memory
import Verdiff.Index.Loops
import Verdiff.Compare.Differences
import Verdiff.PathTree.Balance
import Verdiff.PathTree.Memory
import Verdiff.Scanner.Memory
import Verdiff.Scanner.Paths
import Verdiff.Planner.Attended
import Verdiff.Planner.Termination
import Verdiff.Main.Truth
import Verdiff.Xxhash.Agreement
import Verdiff.Xxhash.Reads
import Verdiff.Main.Mirror
import Verdiff.Main.Presentation
import Verdiff.Output.Summary
import Verdiff.Main.CommandLine
import Verdiff.Main.Counters
import Verdiff.Main.ExitStatus
import Verdiff.Index.Memory
import Verdiff.Hash.Resources
import Verdiff.Compare.Resources
import Verdiff.Progress.Display
import Verdiff.Progress.Throttle
