import Myio.Sync.Submits
import Myio.ZLoop.Submits

/-! Submissions for whose handle there is no memory, on the backends that do their work inside submit. -/

namespace Myio

open Loop (ZIo)

end Myio
