import SocksProxy.Management.Responses

/-!
# The sequential server

What a management session is for, without sockets: lines come one at a time and
each is answered before the next is looked at, until one of them closes the
session. Between two lines other sessions and the proxy may change what is
shared. `Sequential` is that server; the connections of `mgmt.c` are compared
with it, and what a client can learn or change is said about it.
-/

namespace SocksProxy

/-- What a line does: a line that is not well formed changes nothing. -/
def Line.answer (session : MgmtSession) (deps : MgmtDeps) : Line → LineResult
  | .ready text => mgmtHandleLine session deps text
  | .tooLong => ⟨false, session, deps, [ascii "-ERR line too long\n"]⟩
  | .invalid => ⟨false, session, deps, [ascii "-ERR invalid\n"]⟩

/-- Every line is answered with one response that fits. -/
theorem Line.proper (line : Line) (session : MgmtSession) (deps : MgmtDeps) :
    ∃ r, Proper deps (line.answer session deps).printed r := by
  cases line with
  | ready text => exact proper_mgmtHandleLine session deps text
  | tooLong => exact proper_error (by decide) (by decide)
  | invalid => exact proper_error (by decide) (by decide)

/-- What a session is presented with: a line of its own, or a change made elsewhere. -/
inductive Occurrence where
  | line (line : Line)
  | elsewhere (change : MgmtDeps → MgmtDeps)

/-- A session that answers its lines one by one. -/
structure Sequential where
  session : MgmtSession
  deps : MgmtDeps
  output : List UInt8
  closed : Bool

namespace Sequential

/-- A session that begins. -/
def start (deps : MgmtDeps) : Sequential := ⟨mgmtSessionInit, deps, [], false⟩

/-- Answer a line, unless the session was closed. -/
def answer (s : Sequential) (line : Line) : Sequential :=
  if s.closed then s
  else
    let handled := line.answer s.session s.deps
    ⟨handled.session, handled.deps, s.output ++ handled.printed.flatten, handled.close⟩

def next (s : Sequential) : Occurrence → Sequential
  | .line line => s.answer line
  | .elsewhere change => { s with deps := change s.deps }

def serve (s : Sequential) (items : List Occurrence) : Sequential := items.foldl next s

/-- Answer some lines with nothing happening in between. -/
def answerAll (s : Sequential) (lines : List Line) : Sequential := lines.foldl answer s

theorem answer_of_closed {s : Sequential} (closed : s.closed = true) (line : Line) :
    s.answer line = s := by
  rw [answer, if_pos closed]

theorem answerAll_of_closed {s : Sequential} (closed : s.closed = true) (lines : List Line) :
    s.answerAll lines = s := by
  induction lines with
  | nil => rfl
  | cons line lines ih => rw [answerAll, List.foldl_cons, answer_of_closed closed]; exact ih

theorem output_answer (s : Sequential) (line : Line) : s.output <+: (s.answer line).output := by
  unfold answer
  split
  · exact List.prefix_rfl
  · exact List.prefix_append _ _

theorem output_answerAll (s : Sequential) (lines : List Line) :
    s.output <+: (s.answerAll lines).output := by
  induction lines generalizing s with
  | nil => exact List.prefix_rfl
  | cons line lines ih => exact (output_answer s line).trans (ih (s.answer line))

end Sequential

namespace Occurrence

/-- The lines among the items. -/
def lines (items : List Occurrence) : List Line :=
  items.filterMap fun
    | .line said => some said
    | .elsewhere _ => none

/-- The changes among the items. -/
def changes (items : List Occurrence) : List (MgmtDeps → MgmtDeps) :=
  items.filterMap fun
    | .line _ => none
    | .elsewhere change => some change

end Occurrence

end SocksProxy
