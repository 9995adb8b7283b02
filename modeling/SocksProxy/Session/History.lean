import SocksProxy.Session.Protocol

/-!
# Histories

What a history says about the bytes that went each way, the decisions taken and
the point at which relaying began. Histories list the latest observation first;
the byte streams read off them are in the order in which the bytes travelled.
-/

namespace SocksProxy

namespace Obs

@[simp]
def receivedBytes : Obs → List UInt8
  | .received bytes => bytes
  | _ => []

@[simp]
def sentBytes : Obs → List UInt8
  | .sent bytes => bytes
  | _ => []

@[simp]
def fetchedBytes : Obs → List UInt8
  | .fetched bytes => bytes
  | _ => []

@[simp]
def forwardedBytes : Obs → List UInt8
  | .forwarded bytes => bytes
  | _ => []

/-- The reply a decision puts into the write buffer. -/
@[simp]
def replyBytes : Obs → List UInt8
  | .chose method _ => [SOCKS5_VERSION, method]
  | .validated status _ => [SOCKS5_AUTH_VERSION, status]
  | .replied _ reply => reply
  | _ => []

/-- Decisions are the observations that queue a reply. -/
@[simp]
def isDecision : Obs → Bool
  | .chose _ _ | .validated _ _ | .replied _ _ => true
  | _ => false

end Obs

namespace History

/-- The bytes a projection finds, oldest first. -/
def collect (project : Obs → List UInt8) : List Obs → List UInt8
  | [] => []
  | what :: earlier => collect project earlier ++ project what

/-- Bytes received from the client. -/
def received (h : List Obs) : List UInt8 := collect Obs.receivedBytes h

/-- Bytes sent to the client. -/
def sent (h : List Obs) : List UInt8 := collect Obs.sentBytes h

/-- Bytes received from the origin. -/
def fetched (h : List Obs) : List UInt8 := collect Obs.fetchedBytes h

/-- Bytes sent to the origin. -/
def forwarded (h : List Obs) : List UInt8 := collect Obs.forwardedBytes h

/-- Replies put into the write buffer. -/
def queued (h : List Obs) : List UInt8 := collect Obs.replyBytes h

/-- The decisions taken, latest first. -/
def decisions (h : List Obs) : List Obs := h.filter Obs.isDecision

@[simp]
theorem received_nil : received [] = [] := rfl

@[simp]
theorem received_cons (what : Obs) (h : List Obs) :
    received (what :: h) = received h ++ what.receivedBytes := rfl

@[simp]
theorem sent_nil : sent [] = [] := rfl

@[simp]
theorem sent_cons (what : Obs) (h : List Obs) : sent (what :: h) = sent h ++ what.sentBytes := rfl

@[simp]
theorem fetched_nil : fetched [] = [] := rfl

@[simp]
theorem fetched_cons (what : Obs) (h : List Obs) :
    fetched (what :: h) = fetched h ++ what.fetchedBytes := rfl

@[simp]
theorem forwarded_nil : forwarded [] = [] := rfl

@[simp]
theorem forwarded_cons (what : Obs) (h : List Obs) :
    forwarded (what :: h) = forwarded h ++ what.forwardedBytes := rfl

@[simp]
theorem queued_nil : queued [] = [] := rfl

@[simp]
theorem queued_cons (what : Obs) (h : List Obs) :
    queued (what :: h) = queued h ++ what.replyBytes := rfl

@[simp]
theorem decisions_nil : decisions [] = [] := rfl

@[simp]
theorem decisions_cons (what : Obs) (h : List Obs) :
    decisions (what :: h) = if what.isDecision then what :: decisions h else decisions h := by
  simp only [decisions, List.filter_cons]

theorem collect_append (project : Obs → List UInt8) (late early : List Obs) :
    collect project (late ++ early) = collect project early ++ collect project late := by
  induction late with
  | nil => simp [collect]
  | cons what rest ih => simp [collect, ih]

/-- A projection that finds nothing in a history, split by whether the observations that carry
bytes occur. -/
theorem collect_eq_nil {project : Obs → List UInt8} {h : List Obs}
    (silent : ∀ what ∈ h, project what = []) : collect project h = [] := by
  induction h with
  | nil => rfl
  | cons what rest ih =>
      simp only [collect, silent what (by simp), List.append_nil]
      exact ih fun other member => silent other (by simp [member])

theorem queued_eq_decisions (h : List Obs) : queued h = queued (decisions h) := by
  induction h with
  | nil => rfl
  | cons what rest ih => cases what <;> simp [ih]

/-- The history since relaying began, the bytes then unread, and the history before. -/
def relaySplit : List Obs → Option (List Obs × List UInt8 × List Obs)
  | [] => none
  | .leftover bytes :: early => some ([], bytes, early)
  | what :: earlier =>
      (relaySplit earlier).map fun (late, bytes, early) => (what :: late, bytes, early)

theorem eq_append_of_relaySplit {h late early : List Obs} {bytes : List UInt8}
    (split : relaySplit h = some (late, bytes, early)) :
    h = late ++ .leftover bytes :: early := by
  induction h generalizing late with
  | nil => simp [relaySplit] at split
  | cons what earlier ih =>
      cases what with
      | leftover found =>
          simp only [relaySplit, Option.some.injEq, Prod.mk.injEq] at split
          rcases split with ⟨rfl, rfl, rfl⟩
          rfl
      | _ =>
          simp only [relaySplit, Option.map_eq_some_iff, Prod.exists, Prod.mk.injEq] at split
          rcases split with ⟨late', bytes', early', found, rfl, rfl, rfl⟩
          rw [ih found]
          rfl

end History

end SocksProxy
