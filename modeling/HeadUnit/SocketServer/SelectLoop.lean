import HeadUnit.Std.Machine
import HeadUnit.Std.Memory

/-!
# The socket server

The loop around `select` of `SocketServer.c`. A round is what the calls of one pass return; a read
of `client[]` outside of the table is a fault.
-/

namespace HeadUnit.SocketServer

def fdSetSize : Nat := 1024

/-- What `accept` returns behind its interruptions: nothing for now (`EAGAIN`, `EWOULDBLOCK`,
`ECONNABORTED`, `EPROTO`), another error, or a descriptor. A descriptor that cannot be made
nonblocking counts as an error. -/
inductive AcceptResult where
  | again
  | failed
  | connection (fd : Int)
  deriving DecidableEq, Repr

/-- What `select` reports, what `accept` returns and what the reads on the slots return. -/
structure Round where
  ready : Int → Bool
  accept : AcceptResult
  reads : Nat → Int

inductive Event where
  | accepted (fd : Int)
  | read (fd : Int) (n : Int)
  deriving DecidableEq, Repr

/-- The ways out of the loop. -/
inductive Stop where
  | exit
  | fault (f : Fault)

/-- The variables that keep their values from round to round. An `fd_set` is the set of its
descriptors. -/
structure Server where
  client : List Int
  maxi : Int
  allset : List Int
  maxfd : Int
  i : Nat

def Server.init (listenFd : Int) : Server where
  client := List.replicate fdSetSize (-1)
  maxi := -1
  allset := [listenFd]
  maxfd := listenFd
  i := fdSetSize

/-- The search for a free slot: the table and the index at which the loop is left. -/
def slotLoop (connFd : Int) : List Int → List Int × Nat
  | [] => ([], 0)
  | c :: cs =>
    if c < 0 then (connFd :: cs, 0)
    else
      let (cs, i) := slotLoop connFd cs
      (c :: cs, i + 1)

/-- What is done for a new connection. -/
def Server.addClient (s : Server) (connFd : Int) : Server :=
  let (client, i) := if s.maxi < fdSetSize then slotLoop connFd s.client else (s.client, s.i)
  { client := client
    maxi := if i > s.maxi then i else s.maxi
    allset := connFd :: s.allset
    maxfd := if connFd > s.maxfd then connFd else s.maxfd
    i := i }

/-- The loop over the slots from `i` on, of which `left` are left. -/
def scanLoop (client : List Int) (rset : Int → Bool) (reads : Nat → Int) :
    (left i : Nat) → Except Fault (List Event)
  | 0, _ => .ok []
  | left + 1, i =>
    match Mem.load client i with
    | .error f => .error f
    | .ok sockFd =>
      match scanLoop client rset reads left (i + 1) with
      | .error f => .error f
      | .ok events =>
        if sockFd < 0 then .ok events
        else if rset sockFd then .ok (.read sockFd (reads i) :: events)
        else .ok events

/-- The second half of a round. -/
def Server.scan (s : Server) (rset : Int → Bool) (reads : Nat → Int) (events : List Event) :
    Except Stop Server × List Event :=
  let left := (s.maxi + 1).toNat
  match scanLoop s.client rset reads left 0 with
  | .error f => (.error (.fault f), events)
  | .ok reads => (.ok { s with i := left }, events ++ reads)

/-- What `select` leaves in `rset`. -/
def Server.rset (s : Server) (r : Round) (fd : Int) : Bool := decide (fd ∈ s.allset) && r.ready fd

def Server.round (listenFd : Int) (s : Server) (r : Round) : Except Stop Server × List Event :=
  if s.rset r listenFd then
    match r.accept with
    | .again => (.ok s, [])
    | .failed => (.error .exit, [])
    | .connection connFd => (s.addClient connFd).scan (s.rset r) r.reads [.accepted connFd]
  else s.scan (s.rset r) r.reads []

/-- The server; nothing happens behind its end. -/
def server (listenFd : Int) : Transducer (Except Stop Server) Round Event where
  step
    | .error e, _ => (.error e, [])
    | .ok s, r => s.round listenFd r

end HeadUnit.SocketServer
