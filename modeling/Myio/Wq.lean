import Myio.Vtable

/-! The per-socket write FIFO, as the list of its members from head to tail. -/

namespace Myio

/-- `myio_wq_push`: appends, and answers whether the node became the head. -/
def wqPush (q : List TaskId) (n : TaskId) : List TaskId × Bool := (q ++ [n], q.isEmpty)

/-- `myio_wq_pop`: drops the head, and answers with the node that is head now. -/
def wqPop (q : List TaskId) : List TaskId × Option TaskId := (q.tail, q.tail.head?)

/-- `myio_wq_remove`: unlinks a member wherever it is; a node not found changes nothing. -/
def wqRemove (q : List TaskId) (n : TaskId) : List TaskId := q.erase n

end Myio
