import Myio.Connect
import Myio.Pool.Cancel
import Myio.Pool.Contract
import Myio.Pool.Descs
import Myio.Pool.Dispatch
import Myio.Pool.Progress
import Myio.Pool.Sleep
import Myio.Pools
import Myio.Submits
import Myio.Sync.Contract
import Myio.Transfers
import Myio.Uring.Lengths
import Myio.Uv.Accepts
import Myio.Uv.Cancels
import Myio.Uv.Teardown
import Myio.Wait
import Myio.WqHeap
import Myio.Xev.Runs
import Myio.ZLoop.Connects
import Myio.ZLoop.Contract
import Myio.ZLoop.Turn
import Myio.ZPool.Cancel
import Myio.ZPool.Contract
import Myio.ZPool.Files
import Myio.ZSleep
import Myio.Uring.Contract
