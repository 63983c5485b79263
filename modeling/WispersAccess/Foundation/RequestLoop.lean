import Mathlib.Data.List.Basic

/-!
# Servers that answer requests in turn

A server reads requests off one stream and writes an answer to each, with the
help of a service that computes the answers and keeps a state of its own.  How
the bytes on the stream make up requests, and what an answer looks like on the
stream, is the server's matter and not fixed here.
-/

namespace WispersAccess
namespace Foundation

/-- What a server does next on its stream. -/
inductive ServerStep (Req Ans Out State : Type) where
  /-- Ask the service; the answer gives what is written and how it goes on. -/
  | request (req : Req) (answered : Ans -> List Out × State)
  | finished (written : List Out) (failed : Bool)

structure Server (In Req Ans Out : Type) where
  State : Type
  start : In -> State
  next : State -> ServerStep Req Ans Out State

/-- What serving a stream left behind. -/
structure Served (Out Mem : Type) where
  written : List Out
  failed : Bool
  state : Mem

section
variable {In Req Ans Out Mem : Type}

/-- Serve at most `turns` requests. -/
def Server.run (server : Server In Req Ans Out) (service : Mem -> Req -> Ans × Mem) :
    Nat -> server.State -> Mem -> Served Out Mem
  | 0, _, s => ⟨[], false, s⟩
  | turns + 1, pos, s =>
      match server.next pos with
      | ServerStep.finished written failed => ⟨written, failed, s⟩
      | ServerStep.request req answered =>
          let answer := service s req
          let after := answered answer.1
          let rest := server.run service turns after.2 answer.2
          ⟨after.1 ++ rest.written, rest.failed, rest.state⟩

variable {server : Server In Req Ans Out}

/-- Two services that agree up to a point from which there is no way back serve a
stream alike, if the first does not get past that point. -/
theorem Server.run_congr {service service' : Mem -> Req -> Ans × Mem} {I : Mem -> Prop}
    (hback : forall s req, I (service s req).2 -> I s)
    (hagree : forall s req, I (service s req).2 -> service s req = service' s req)
    (turns : Nat) (pos : server.State) (s : Mem)
    (hend : I (server.run service turns pos s).state) :
    server.run service turns pos s = server.run service' turns pos s := by
  have hstart : forall turns pos s, I (server.run service turns pos s).state -> I s := by
    intro turns pos s
    induction turns generalizing pos s with
    | zero => exact id
    | succ turns ih =>
        unfold Server.run
        cases server.next pos with
        | finished written failed => exact id
        | request req answered =>
            intro h
            exact hback s req (ih _ _ h)
  induction turns generalizing pos s with
  | zero => rfl
  | succ turns ih =>
      unfold Server.run at hend ⊢
      cases hnext : server.next pos with
      | finished written failed => rfl
      | request req answered =>
          simp only [hnext] at hend ⊢
          rw [← hagree s req (hstart _ _ _ hend), ih _ _ hend]

end

end Foundation
end WispersAccess
