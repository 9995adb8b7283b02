import SocksProxy.Library.Prog
import SocksProxy.Server.AccessLog
import SocksProxy.Server.MgmtParser

/-!
# The management client

`smcp_client.c`: one blocking connection to the management service, on which
each call sends a command and reads its response line by line. What the kernel
has to say to `send()` and `recv()` is given with the call; a call for which it
has nothing more to say waits for ever. `sent` keeps what `send()` took, `out`
and `err` what was printed.
-/

namespace SocksProxy

def SMCP_LINE_MAX : Nat := 4096

/-- `smcp_result`. -/
inductive SmcpResult where
  | ok
  | rejected
  | transportError
  deriving DecidableEq, Repr

/-- What `send()` returns: at least one byte was taken, and `more` after it, or an error. -/
inductive SendReturn where
  | taken (more : Nat)
  | interrupted
  | failed (strerror : List UInt8)

/-- What `recv()` returns when it is asked for one byte. -/
inductive RecvReturn where
  | byte (c : UInt8)
  | closed
  | interrupted
  | failed (strerror : List UInt8)

/-- The connection of the client, and the streams it prints to. -/
structure Client where
  sends : List SendReturn
  recvs : List RecvReturn
  sent : List UInt8
  out : List UInt8
  err : List UInt8

/-- A system call never returns. -/
inductive Waiting where
  | waiting

abbrev ClientM := Prog Client Waiting

namespace ClientM

def printOut (text : List UInt8) : ClientM Unit :=
  modify fun client => { client with out := client.out ++ text }

def printErr (text : List UInt8) : ClientM Unit :=
  modify fun client => { client with err := client.err ++ text }

end ClientM

open ClientM

/-! ## Sending and receiving -/

/-- How `send_all` ends: what is left to be returned, what was taken, and the message of an error.
-/
structure SendEnd where
  sends : List SendReturn
  taken : List UInt8
  error : Option (List UInt8)

/-- The loop of `send_all`. -/
def sendAllLoop (pending taken : List UInt8) : List SendReturn → Option SendEnd
  | [] => if pending = [] then some ⟨[], taken, none⟩ else none
  | answer :: later =>
      if pending = [] then some ⟨answer :: later, taken, none⟩
      else
        match answer with
        | .taken more =>
            sendAllLoop (pending.drop (more + 1)) (taken ++ pending.take (more + 1)) later
        | .interrupted => sendAllLoop pending taken later
        | .failed strerror => some ⟨later, taken, some (ascii "send: " ++ strerror ++ ascii "\n")⟩

/-- `send_all`. -/
def sendAll (s : List UInt8) : ClientM Bool := do
  match sendAllLoop s [] (← get).sends with
  | none => throw .waiting
  | some ended => do
      modify fun client =>
        { client with
          sends := ended.sends
          sent := client.sent ++ ended.taken
          err := client.err ++ ended.error.getD [] }
      pure ended.error.isNone

/-- How `read_line` ends: with the line it has stored, read as a C string, or with a message. -/
inductive LineRead where
  | line (text : List UInt8)
  | failed (message : List UInt8)

/-- The loop of `read_line`, with `buf` stored so far. -/
def readLineLoop (cap : Nat) (buf : List UInt8) :
    List RecvReturn → Option (LineRead × List RecvReturn)
  | [] =>
      if buf.length + 1 < cap then none else some (.failed (ascii "response line too long\n"), [])
  | answer :: later =>
      if buf.length + 1 < cap then
        match answer with
        | .byte c =>
            if c = LF then some (.line (cText (Line.chomp buf)), later)
            else readLineLoop cap (buf ++ [c]) later
        | .closed => some (.failed (ascii "server closed the connection\n"), later)
        | .interrupted => readLineLoop cap buf later
        | .failed strerror => some (.failed (ascii "recv: " ++ strerror ++ ascii "\n"), later)
      else some (.failed (ascii "response line too long\n"), answer :: later)

/-- `read_line`. -/
def readLine : ClientM (Option (List UInt8)) := do
  match readLineLoop SMCP_LINE_MAX [] (← get).recvs with
  | none => throw .waiting
  | some (.line text, recvs) => do
      modify fun client => { client with recvs }
      pure (some text)
  | some (.failed message, recvs) => do
      modify fun client => { client with recvs, err := client.err ++ message }
      pure none

/-! ## Commands -/

/-- `smcp_is_token`. -/
def smcpIsToken (s : CString) : Bool :=
  s.bytes ≠ [] && s.bytes.all fun c => !(isSpace c || c < 0x21 || 0x7E < c)

/-- `smcp_parse_count_status`. -/
def smcpParseCountStatus (line : List UInt8) : Option Nat :=
  if (ascii "+OK ").isPrefixOf line && (line.drop 4).head?.any isDigit then
    let n := strtoul (line.drop 4)
    if n.outOfRange || n.rest ≠ [] then none else some n.value
  else none

/-- `build_command`: the words of the format and the arguments, parted by spaces. -/
def buildCommand (word : String) (args : List CString) : Option (List UInt8) :=
  let text := [SP].intercalate (ascii word :: args.map CString.bytes)
  if text.length < SMCP_LINE_MAX then some text else none

/-- The bytes `run_command` sends for a command, unless it is too long. -/
def wireOf (command : List UInt8) : Option (List UInt8) :=
  if command.length + 1 < SMCP_LINE_MAX then some (command ++ [LF]) else none

/-- The loop of `run_command` over the data lines. -/
def readData (verbose : Bool) : Nat → ClientM Bool
  | 0 => pure true
  | count + 1 => do
      match ← readLine with
      | none => pure false
      | some line => do
          printOut ((if verbose then ascii "  " else []) ++ line ++ ascii "\n")
          readData verbose count

/-- What `run_command` prints for a success that announces nothing. -/
def plainText (verbose : Bool) (line : List UInt8) : List UInt8 :=
  if verbose then ascii "  " ++ line ++ ascii "\n"
  else if line = ascii "+OK" then ascii "\n"
  else if (ascii "+OK ").isPrefixOf line then line.drop 4 ++ ascii "\n"
  else line ++ ascii "\n"

def malformed (line : List UInt8) : ClientM SmcpResult := do
  printErr (ascii "malformed response: " ++ line ++ ascii "\n")
  pure .transportError

/-- `run_command` from the status line on. -/
def readResponse (verbose : Bool) (line : List UInt8) : ClientM SmcpResult :=
  if (ascii "-ERR ").isPrefixOf line then do
    printErr ((if verbose then line else line.drop 5) ++ ascii "\n")
    pure .rejected
  else if (ascii "+OK").isPrefixOf line then
    match smcpParseCountStatus line with
    | some count => do
        printOut (if verbose then ascii "  " ++ line ++ ascii "\n" else [])
        if ← readData verbose count then pure .ok else pure .transportError
    | none => do
        printOut (plainText verbose line)
        pure .ok
  else malformed line

/-- `run_command` once the command was sent. -/
def readAnswer (allowGreeting verbose : Bool) : ClientM SmcpResult := do
  match ← readLine with
  | none => pure .transportError
  | some line =>
      if (ascii "+OK SMCP ").isPrefixOf line then
        if allowGreeting then do
          match ← readLine with
          | none => pure .transportError
          | some line => readResponse verbose line
        else malformed line
      else readResponse verbose line

/-- What `run_command` prints before it reads. -/
def commandHeader (verbose : Bool) (display : List UInt8) : List UInt8 :=
  if verbose then ascii "\nCommand\n  " ++ display ++ ascii "\n\nResponse\n" else []

def commandTooLong : ClientM SmcpResult := do
  printErr (ascii "command too long\n")
  pure .rejected

/-- `run_command`. -/
def runCommand (command display : List UInt8) (allowGreeting verbose : Bool) :
    ClientM SmcpResult := do
  match wireOf command with
  | none => commandTooLong
  | some wire =>
      if ← sendAll wire then do
        printOut (commandHeader verbose display)
        readAnswer allowGreeting verbose
      else pure .transportError

/-- A command that was built is run, and one that was not is refused. -/
def runBuilt (built : Option (List UInt8)) (display : List UInt8 → List UInt8)
    (allowGreeting verbose : Bool) : ClientM SmcpResult :=
  match built with
  | none => commandTooLong
  | some command => runCommand command (display command) allowGreeting verbose

/-- `smcp_cmd_auth`. -/
def smcpCmdAuth (user pass : CString) (verbose : Bool) : ClientM SmcpResult :=
  runBuilt (buildCommand "AUTH" [user, pass])
    (fun _ => ascii "AUTH <admin> <password>") true verbose

/-- `smcp_cmd_metrics`. -/
def smcpCmdMetrics (verbose : Bool) : ClientM SmcpResult :=
  runCommand (ascii "METRICS") (ascii "METRICS") false verbose

/-- `smcp_cmd_list_users`. -/
def smcpCmdListUsers (verbose : Bool) : ClientM SmcpResult :=
  runCommand (ascii "LIST-USERS") (ascii "LIST-USERS") false verbose

/-- What is shown for a password. -/
def hiddenPassword : CString := ⟨ascii "<password>", by decide⟩

/-- `smcp_cmd_add_user`: the text that is shown has to fit as well. -/
def smcpCmdAddUser (user pass : CString) (verbose : Bool) : ClientM SmcpResult :=
  match buildCommand "ADD-USER" [user, pass] with
  | none => commandTooLong
  | some command =>
      match buildCommand "ADD-USER" [user, hiddenPassword] with
      | none => commandTooLong
      | some display => runCommand command display false verbose

/-- `smcp_cmd_del_user`. -/
def smcpCmdDelUser (user : CString) (verbose : Bool) : ClientM SmcpResult :=
  runBuilt (buildCommand "DEL-USER" [user]) id false verbose

/-- `smcp_cmd_get_config`. -/
def smcpCmdGetConfig (verbose : Bool) : ClientM SmcpResult :=
  runCommand (ascii "GET-CONFIG") (ascii "GET-CONFIG") false verbose

/-- `smcp_cmd_set`. -/
def smcpCmdSet (key value : CString) (verbose : Bool) : ClientM SmcpResult :=
  runBuilt (buildCommand "SET" [key, value]) id false verbose

/-- The command `smcp_cmd_log` builds; a missing count is `NULL`. -/
def logCommand (count : Option CString) : Option (List UInt8) :=
  match count with
  | none => some (ascii "LOG")
  | some count =>
      if count.bytes = [] then some (ascii "LOG") else buildCommand "LOG" [count]

/-- `smcp_cmd_log`. -/
def smcpCmdLog (count : Option CString) (verbose : Bool) : ClientM SmcpResult :=
  runBuilt (logCommand count) id false verbose

/-- `smcp_cmd_passwd`. -/
def smcpCmdPasswd (pass : CString) (verbose : Bool) : ClientM SmcpResult :=
  runBuilt (buildCommand "PASSWD" [pass]) (fun _ => ascii "PASSWD <new-password>") false verbose

/-- `smcp_cmd_help`. -/
def smcpCmdHelp (verbose : Bool) : ClientM SmcpResult :=
  runCommand (ascii "HELP") (ascii "HELP") false verbose

/-- `smcp_cmd_quit`. -/
def smcpCmdQuit (verbose : Bool) : ClientM SmcpResult :=
  runCommand (ascii "QUIT") (ascii "QUIT") false verbose

/-! ## Calls -/

/-- A call of one of the functions `smcp_cmd_*`. -/
inductive SmcpCall where
  | auth (user pass : CString)
  | metrics
  | listUsers
  | addUser (user pass : CString)
  | delUser (user : CString)
  | getConfig
  | set (key value : CString)
  | log (count : Option CString)
  | passwd (pass : CString)
  | help
  | quit

namespace SmcpCall

/-- The function that is called. -/
def run (verbose : Bool) : SmcpCall → ClientM SmcpResult
  | .auth user pass => smcpCmdAuth user pass verbose
  | .metrics => smcpCmdMetrics verbose
  | .listUsers => smcpCmdListUsers verbose
  | .addUser user pass => smcpCmdAddUser user pass verbose
  | .delUser user => smcpCmdDelUser user verbose
  | .getConfig => smcpCmdGetConfig verbose
  | .set key value => smcpCmdSet key value verbose
  | .log count => smcpCmdLog count verbose
  | .passwd pass => smcpCmdPasswd pass verbose
  | .help => smcpCmdHelp verbose
  | .quit => smcpCmdQuit verbose

/-- The word of the command. -/
def word : SmcpCall → String
  | .auth _ _ => "AUTH"
  | .metrics => "METRICS"
  | .listUsers => "LIST-USERS"
  | .addUser _ _ => "ADD-USER"
  | .delUser _ => "DEL-USER"
  | .getConfig => "GET-CONFIG"
  | .set _ _ => "SET"
  | .log _ => "LOG"
  | .passwd _ => "PASSWD"
  | .help => "HELP"
  | .quit => "QUIT"

/-- The arguments of the call. -/
def args : SmcpCall → List CString
  | .auth user pass => [user, pass]
  | .addUser user pass => [user, pass]
  | .delUser user => [user]
  | .set key value => [key, value]
  | .log count => count.toList
  | .passwd pass => [pass]
  | .metrics | .listUsers | .getConfig | .help | .quit => []

end SmcpCall

end SocksProxy
