import InertiaTrader.Foundation.AssociationList
import InertiaTrader.Foundation.Machine
import InertiaTrader.Server.Basic

/-!
# `acceptConn` and `freeEmptysocket`

How connections come into `connStorage_` and leave it.  A `Connection` object is
never deleted, so every new one has an address of its own.
-/

namespace InertiaTrader

open Foundation

/-- `Connection::Connection(int, int)`.  It does not set `login_flag_`, which
keeps what the memory held. -/
def Connection.construct (id : ℤ) (memory : Bool) : Connection where
  connectionID := id
  username := []
  loginFlag := memory

/-- `rand() % 99` -/
def connectionSpace (draw : ℕ) : ℤ := draw % 99

/-- `acceptConn` after `accept` has returned: `cn` is what `new Connection`
returns and `draw` what `rand` does. -/
def Server.acceptConn (cn : ConnRef) (draw : ℕ) (memory : Bool) (sr : Server) : Server :=
  let space := connectionSpace draw
  { sr with
    connections := Function.update sr.connections cn (.construct space memory)
    connStorage := insertNew space cn sr.connStorage }

/-- The loop of `freeEmptysocket` over the entries from `it` on. -/
def freeFrom (recvStatus : ConnRef → Bool) :
    List (ℤ × ConnRef) → Except Fault (List (ℤ × ConnRef))
  | [] => .ok []
  | entry :: rest =>
      if recvStatus entry.2 then do
        return entry :: (← freeFrom recvStatus rest)
      else
        -- `erase` returns the next entry, and `++it` then skips it.
        match rest with
        | [] => .error .endIterator
        | skipped :: rest => do
            return skipped :: (← freeFrom recvStatus rest)

/-- `Server::freeEmptysocket` -/
def Server.freeEmptysocket (recvStatus : ConnRef → Bool) (sr : Server) :
    Except Fault Server := do
  return { sr with connStorage := ← freeFrom recvStatus sr.connStorage }

/-- The server with the status that each connection's socket has. -/
structure Sockets where
  sr : Server
  /-- The connections that `acceptConn` has made. -/
  accepted : List ConnRef := []
  recvStatus : ConnRef → Bool := fun _ => false

inductive SocketEvent where
  | acceptConn (cn : ConnRef) (draw : ℕ) (memory : Bool)
  /-- A receive or a send on the socket fails. -/
  | disconnect (cn : ConnRef)
  | freeEmptysocket

namespace Sockets

def step (state : Sockets) : SocketEvent → Option (Sockets × List Empty)
  | .acceptConn cn draw memory =>
      if cn ∈ state.accepted then none
      else
        some ({
          sr := state.sr.acceptConn cn draw memory
          accepted := cn :: state.accepted
          recvStatus := Function.update state.recvStatus cn true }, [])
  | .disconnect cn =>
      some ({ state with recvStatus := Function.update state.recvStatus cn false }, [])
  | .freeEmptysocket =>
      match state.sr.freeEmptysocket state.recvStatus with
      | .error _ => none
      | .ok sr => some ({ state with sr }, [])

/-- An accepted connection whose socket is not known to be dead. -/
def Live (state : Sockets) (cn : ConnRef) : Prop :=
  cn ∈ state.accepted ∧ state.recvStatus cn = true

/-- The server before the first `accept`. -/
def start (userList : List (Text × UserData)) (connections : ConnRef → Connection) : Sockets where
  sr := .construct userList connections

end Sockets

def sockets : Machine Sockets SocketEvent Empty := ⟨Sockets.step⟩

theorem freeFrom_cases {recvStatus : ConnRef → Bool} {entries freed : List (ℤ × ConnRef)}
    (finished : freeFrom recvStatus entries = .ok freed) :
    freed.Sublist entries ∧
      ∀ entry ∈ entries, recvStatus entry.2 = true → entry ∈ freed := by
  fun_induction freeFrom recvStatus entries generalizing freed with
  | case1 =>
      cases finished
      exact ⟨.slnil, fun _ listed => nomatch listed⟩
  | case2 entry rest alive inductionHypothesis =>
      obtain ⟨kept, ran, returned⟩ := bind_eq_ok_iff.mp finished
      cases returned
      obtain ⟨sublist, keeps⟩ := inductionHypothesis ran
      refine ⟨sublist.cons_cons entry, ?_⟩
      intro other listed otherAlive
      rcases List.mem_cons.mp listed with rfl | later
      · exact List.mem_cons_self
      · exact List.mem_cons_of_mem entry (keeps other later otherAlive)
  | case3 entry dead => cases finished
  | case4 entry dead skipped rest inductionHypothesis =>
      obtain ⟨kept, ran, returned⟩ := bind_eq_ok_iff.mp finished
      cases returned
      obtain ⟨sublist, keeps⟩ := inductionHypothesis ran
      refine ⟨(sublist.cons_cons skipped).cons entry, ?_⟩
      intro other listed otherAlive
      rcases List.mem_cons.mp listed with rfl | later
      · exact absurd otherAlive dead
      · rcases List.mem_cons.mp later with rfl | later
        · exact List.mem_cons_self
        · exact List.mem_cons_of_mem skipped (keeps other later otherAlive)

end InertiaTrader
