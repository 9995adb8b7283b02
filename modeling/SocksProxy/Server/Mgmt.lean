import SocksProxy.Server.AccessLog
import SocksProxy.Server.Config
import SocksProxy.Server.MgmtParser

/-!
# Management commands

`mgmt.c` up to its dispatcher: the administrator's credentials and the commands
of SMCP. A command changes the resources that `main()` shares between all
sessions and prints its response with successive calls of `out_printf`. Nothing
reads the output while a line is handled, so a command returns the texts it
prints, and `outPrintf` says what each of them does to the output buffer.
-/

namespace SocksProxy

def MGMT_LOG_MAX_LINES : Nat := 50

def MGMT_OUTPUT_BUFFER_SIZE : Nat := MGMT_LOG_MAX_LINES * ACCESS_LOG_LINE_MAX + 4096

/-- `sizeof(tmp)` in `out_printf`. -/
def OUT_PRINTF_MAX : Nat := ACCESS_LOG_LINE_MAX + 128

/-! ## The administrator -/

namespace CString

/-- The empty string. -/
def empty : CString := ⟨[], by simp⟩

/-- At most the first `n` bytes of a string. -/
def take (s : CString) (n : Nat) : CString where
  bytes := s.bytes.take n
  nulFree := fun nul => s.nulFree (List.mem_of_mem_take nul)

end CString

/-- `snprintf(array, sizeof(array), "%s", source)`: what does not fit is cut off. -/
def CharArray.print (array : CharArray) (source : CString) : CharArray :=
  array.copy (source.take USERS_NAME_MAX) (List.length_take_le _ _)

/-- `struct AdminCreds`. -/
structure AdminCreds where
  name : CharArray
  pass : CharArray

/-- `admin_init`; a missing string is `NULL`. -/
def adminInit (a : AdminCreds) (name pass : Option CString) : AdminCreds where
  name := a.name.print (name.getD CString.empty)
  pass := a.pass.print (pass.getD CString.empty)

/-- `admin_check`. -/
def adminCheck (a : AdminCreds) (name pass : CString) : Bool :=
  if a.name.text = [] then false
  else a.name.text = name.bytes && a.pass.text = pass.bytes

/-- `admin_set_pass`: `none` where the source returns `false`. -/
def adminSetPass (a : AdminCreds) (pass : CString) : Option AdminCreds :=
  if pass.bytes = [] ∨ USERS_PASS_MAX + 1 ≤ pass.bytes.length then none
  else some { a with pass := a.pass.print pass }

/-- `struct mgmt_deps`: what SMCP reads and changes. `logOpens` is what `fopen` answers when the log
is to be read. -/
structure MgmtDeps where
  users : Users
  metrics : Metrics
  config : Config
  accessLog : AccessLog
  logOpens : Bool
  admin : AdminCreds

/-- `struct mgmt_session`. -/
structure MgmtSession where
  authenticated : Bool
  deriving DecidableEq

/-- `mgmt_session_init`. -/
def mgmtSessionInit : MgmtSession := ⟨false⟩

/-! ## Helpers -/

/-- `tolower` in the C locale. -/
def toLower (c : UInt8) : UInt8 := if 0x41 ≤ c ∧ c ≤ 0x5A then c + 0x20 else c

/-- `ieq`: `strcasecmp` of a word with a command or a key. -/
def ieq (a : CString) (b : String) : Bool := a.bytes.map toLower = (ascii b).map toLower

/-- `out_printf` of a formatted text. -/
def outPrintf (b : Buffer) (text : List UInt8) : Buffer := b.store (text.take (OUT_PRINTF_MAX - 1))

/-- Successive calls of `out_printf`. -/
def outPrintfAll (b : Buffer) (texts : List (List UInt8)) : Buffer := texts.foldl outPrintf b

/-- `parse_u32`. -/
def parseU32 (s : CString) : Option UInt32 :=
  if s.bytes = [] then none
  else if (strtoul s.bytes).rest ≠ [] ∨ 2 ^ 32 ≤ (strtoul s.bytes).value then none
  else some (UInt32.ofNat (strtoul s.bytes).value)

/-! ## Commands -/

/-- A line of a response that names a value. -/
def fieldText (name : String) (value : Nat) : List UInt8 :=
  ascii name ++ ascii " " ++ decimal value ++ ascii "\n"

/-- The status line that announces so many data lines. -/
def countText (n : Nat) : List UInt8 := ascii "+OK " ++ decimal n ++ ascii "\n"

/-- `cmd_metrics`. -/
def cmdMetrics (deps : MgmtDeps) : List (List UInt8) :=
  let m := deps.metrics
  [ascii "+OK 7\n",
    fieldText "active_connections" m.activeConnections.toNat,
    fieldText "historical_connections" m.historicalConnections.toNat,
    fieldText "max_active_connections" m.maxActiveConnections.toNat,
    fieldText "bytes_client_to_origin" m.bytesClientToOrigin.toNat,
    fieldText "bytes_origin_to_client" m.bytesOriginToClient.toNat,
    fieldText "total_bytes" (m.bytesClientToOrigin + m.bytesOriginToClient).toNat,
    fieldText "users_count" (usersCount deps.users)]

/-- `cmd_list_users`. -/
def cmdListUsers (deps : MgmtDeps) : List (List UInt8) :=
  countText (usersCount deps.users) ::
    (List.range (usersCount deps.users)).map fun i =>
      (usersNameAt deps.users i).getD [] ++ ascii "\n"

/-- `cmd_add_user`. -/
def cmdAddUser (deps : MgmtDeps) (args : List CString) : MgmtDeps × List (List UInt8) :=
  match args with
  | [name, pass] =>
      if usersExists deps.users name then (deps, [ascii "-ERR user exists\n"])
      else if USERS_MAX ≤ usersCount deps.users then (deps, [ascii "-ERR store full\n"])
      else
        match usersAdd deps.users name pass with
        | some users => ({ deps with users }, [ascii "+OK user added\n"])
        | none => (deps, [ascii "-ERR invalid\n"])
  | _ => (deps, [ascii "-ERR invalid\n"])

/-- `cmd_del_user`. -/
def cmdDelUser (deps : MgmtDeps) (args : List CString) : MgmtDeps × List (List UInt8) :=
  match args with
  | [name] =>
      match usersDel deps.users name with
      | some users => ({ deps with users }, [ascii "+OK user removed\n"])
      | none => (deps, [ascii "-ERR no such user\n"])
  | _ => (deps, [ascii "-ERR invalid\n"])

/-- `cmd_get_config`. -/
def cmdGetConfig (deps : MgmtDeps) : List (List UInt8) :=
  [ascii "+OK 3\n",
    fieldText "conn_timeout" deps.config.connTimeout.toNat,
    fieldText "io_buffer_size" deps.config.ioBufferSize.toNat,
    fieldText "max_connections" deps.config.maxConnections.toNat]

/-- The setter `cmd_set` calls for a known key. -/
def configSet (cfg : Config) (key : CString) (v : UInt32) : Option Config :=
  if ieq key "conn_timeout" then configSetConnTimeout cfg v
  else if ieq key "io_buffer_size" then configSetIoBufferSize cfg v
  else configSetMaxConnections cfg v

/-- `cmd_set`. -/
def cmdSet (deps : MgmtDeps) (args : List CString) : MgmtDeps × List (List UInt8) :=
  match args with
  | [key, value] =>
      if ieq key "conn_timeout" || ieq key "io_buffer_size" || ieq key "max_connections" then
        match parseU32 value with
        | none => (deps, [ascii "-ERR invalid value\n"])
        | some v =>
            match configSet deps.config key v with
            | some config =>
                ({ deps with config },
                  [ascii "+OK " ++ key.bytes ++ ascii " = " ++ decimal v.toNat ++ ascii "\n"])
            | none => (deps, [ascii "-ERR invalid value\n"])
      else (deps, [ascii "-ERR unknown key\n"])
  | _ => (deps, [ascii "-ERR invalid\n"])

/-- The lines `cmd_log` prints for a count. What an earlier call has left in its static array is not
looked at. -/
def logTexts (deps : MgmtDeps) (n : UInt32) : List (List UInt8) :=
  let lines := Vector.replicate MGMT_LOG_MAX_LINES []
  let tail := accessLogTail deps.accessLog deps.logOpens (min n.toNat MGMT_LOG_MAX_LINES) lines
  countText tail.1 :: (storedLines tail).map fun line => line ++ ascii "\n"

/-- `cmd_log`. -/
def cmdLog (deps : MgmtDeps) (args : List CString) : List (List UInt8) :=
  match args with
  | [] => logTexts deps 10
  | [count] =>
      match parseU32 count with
      | none => [ascii "-ERR invalid\n"]
      | some n => logTexts deps n
  | _ => [ascii "-ERR invalid\n"]

/-- `cmd_help`. -/
def cmdHelp : List (List UInt8) :=
  [ascii "+OK 10\n",
    ascii "AUTH <user> <pass>\n",
    ascii "METRICS\n",
    ascii "LIST-USERS\n",
    ascii "ADD-USER <user> <pass>\n",
    ascii "DEL-USER <user>\n",
    ascii "GET-CONFIG\n",
    ascii "SET <key> <value>\n",
    ascii "LOG [n]\n",
    ascii "PASSWD <newpass>\n",
    ascii "QUIT\n"]

/-- The `PASSWD` case of the dispatcher. -/
def cmdPasswd (deps : MgmtDeps) (args : List CString) : MgmtDeps × List (List UInt8) :=
  match args with
  | [pass] =>
      match adminSetPass deps.admin pass with
      | some admin => ({ deps with admin }, [ascii "+OK password changed\n"])
      | none => (deps, [ascii "-ERR invalid\n"])
  | _ => (deps, [ascii "-ERR invalid\n"])

/-! ## The dispatcher -/

/-- What handling a line leaves: whether the session is to be closed, the session and the shared
resources, and the texts of the successive calls of `out_printf`. -/
structure LineResult where
  close : Bool
  session : MgmtSession
  deps : MgmtDeps
  printed : List (List UInt8)

/-- The `AUTH` case of the dispatcher. -/
def cmdAuth (s : MgmtSession) (deps : MgmtDeps) (args : List CString) :
    MgmtSession × List (List UInt8) :=
  if s.authenticated then (s, [ascii "-ERR already authenticated\n"])
  else
    match args with
    | [name, pass] =>
        if adminCheck deps.admin name pass then (⟨true⟩, [ascii "+OK authenticated\n"])
        else (s, [ascii "-ERR bad credentials\n"])
    | _ => (s, [ascii "-ERR invalid\n"])

/-- The commands that require authentication. -/
def mgmtCommand (deps : MgmtDeps) (cmd : CString) (args : List CString) :
    MgmtDeps × List (List UInt8) :=
  if args ≠ [] ∧ (ieq cmd "METRICS" || ieq cmd "LIST-USERS" || ieq cmd "GET-CONFIG") then
    (deps, [ascii "-ERR invalid\n"])
  else if ieq cmd "METRICS" then (deps, cmdMetrics deps)
  else if ieq cmd "LIST-USERS" then (deps, cmdListUsers deps)
  else if ieq cmd "ADD-USER" then cmdAddUser deps args
  else if ieq cmd "DEL-USER" then cmdDelUser deps args
  else if ieq cmd "GET-CONFIG" then (deps, cmdGetConfig deps)
  else if ieq cmd "SET" then cmdSet deps args
  else if ieq cmd "LOG" then (deps, cmdLog deps args)
  else if ieq cmd "PASSWD" then cmdPasswd deps args
  else (deps, [ascii "-ERR unknown command\n"])

/-- `mgmt_handle_line`. -/
def mgmtHandleLine (s : MgmtSession) (deps : MgmtDeps) (line : CString) : LineResult :=
  match mgmtTokenize 5 line with
  | [] => ⟨false, s, deps, [ascii "-ERR unknown command\n"]⟩
  | cmd :: args =>
      if args ≠ [] ∧ (ieq cmd "QUIT" || ieq cmd "HELP") then
        ⟨false, s, deps, [ascii "-ERR invalid\n"]⟩
      else if ieq cmd "QUIT" then ⟨true, s, deps, [ascii "+OK bye\n"]⟩
      else if ieq cmd "HELP" then ⟨false, s, deps, cmdHelp⟩
      else if ieq cmd "AUTH" then
        ⟨false, (cmdAuth s deps args).1, deps, (cmdAuth s deps args).2⟩
      else if s.authenticated = false then ⟨false, s, deps, [ascii "-ERR not authenticated\n"]⟩
      else ⟨false, s, (mgmtCommand deps cmd args).1, (mgmtCommand deps cmd args).2⟩

end SocksProxy
