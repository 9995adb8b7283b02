import SocksProxy.Server.Mgmt
import SocksProxy.Server.UserStore
import SocksProxy.Shared.Selector

/-!
# Starting the server

`args.c` and the part of `main()` that sets up what the proxy and the management
service share. `getopt_long` is modelled for the options the server has: none of
them is long, and an argument that is no option stays for after the loop.
Everything that ends the process is `none`.
-/

namespace SocksProxy

def MAX_USERS : Nat := 10

def COLON : UInt8 := 0x3A

/-- `struct User`, once it is set. -/
structure User where
  name : CString
  pass : CString
  deriving DecidableEq

/-- `struct socks5args`: the entries of `users` that are set come first. -/
structure Socks5Args where
  socksAddr : CString
  socksPort : Nat
  mngAddr : CString
  mngPort : Nat
  users : List User
  admin : Option User
  accessLogPath : CString
  users_le : users.length ≤ MAX_USERS

/-! ## Options -/

/-- What a call of `getopt_long` returns, with the option's argument. -/
inductive Getopt where
  | flag (letter : UInt8)
  | option (letter : UInt8) (optarg : CString)
  | invalid

/-- The options of `"hl:L:p:P:u:a:o:"`, and whether they take an argument. -/
def takesArgument (letter : UInt8) : Option Bool :=
  if letter ∈ ascii "h" then some false
  else if letter ∈ ascii "lLpPuao" then some true
  else none

/-- The options of one element of the command line; the last of them may take the next element. -/
def getoptElement (element : CString) : List UInt8 → List Getopt × Option UInt8
  | [] => ([], none)
  | letter :: letters =>
      match takesArgument letter with
      | some true =>
          if letters = [] then ([], some letter)
          else
            let optarg := element.bytes.drop (element.bytes.length - letters.length)
            ([.option letter ⟨optarg, fun nul => element.nulFree (List.mem_of_mem_drop nul)⟩], none)
      | some false =>
          let (later, awaiting) := getoptElement element letters
          (.flag letter :: later, awaiting)
      | none =>
          let (later, awaiting) := getoptElement element letters
          (.invalid :: later, awaiting)

/-- What successive calls of `getopt_long` return until there are no more options, and the arguments
that are left over then. -/
def getoptLong : Option UInt8 → List CString → List Getopt × List CString
  | none, [] => ([], [])
  | some _, [] => ([.invalid], [])
  | some letter, element :: rest =>
      let (later, operands) := getoptLong none rest
      (.option letter element :: later, operands)
  | none, element :: rest =>
      match element.bytes with
      | [0x2D, 0x2D] => ([], rest)
      | 0x2D :: 0x2D :: _ =>
          let (later, operands) := getoptLong none rest
          (.invalid :: later, operands)
      | 0x2D :: letter :: letters =>
          let (found, awaiting) := getoptElement element (letter :: letters)
          let (later, operands) := getoptLong awaiting rest
          (found ++ later, operands)
      | _ =>
          let (later, operands) := getoptLong none rest
          (later, element :: operands)

/-- `port`: the number `strtol` reads, if nothing follows it and it is a port. -/
def port (s : CString) : Option Nat :=
  let body := s.bytes.dropWhile isSpace
  let negative := body.head? = some 0x2D
  let unsigned := if negative ∨ body.head? = some 0x2B then body.drop 1 else body
  let digits := unsigned.takeWhile isDigit
  if digits = [] ∨ unsigned.dropWhile isDigit ≠ [] ∨ negative then none
  else if digitsValue digits < 1 ∨ 65535 < digitsValue digits then none
  else some (digitsValue digits)

/-- `user`: a name and a password, parted at the first colon. -/
def user (s : CString) : Option User :=
  if COLON ∈ s.bytes then some ⟨s.upTo COLON, s.after COLON⟩ else none

/-- The values `parse_args` starts with. -/
def defaultArgs : Socks5Args where
  socksAddr := ⟨ascii "0.0.0.0", by decide⟩
  socksPort := 1080
  mngAddr := ⟨ascii "127.0.0.1", by decide⟩
  mngPort := 8080
  users := []
  admin := none
  accessLogPath := ⟨ascii "access.log", by decide⟩
  users_le := Nat.zero_le _

/-- The `-u` case of `parse_args`. -/
def addUserArg (args : Socks5Args) (optarg : CString) : Option Socks5Args :=
  if room : args.users.length < MAX_USERS then
    (user optarg).map fun given =>
      { args with
        users := args.users ++ [given]
        users_le := by simpa using Nat.succ_le_of_lt room }
  else none

/-- The body of the loop of `parse_args`. -/
def parseOption (args : Socks5Args) : Getopt → Option Socks5Args
  | .invalid => none
  | .flag _ => none
  | .option letter optarg =>
      if letter = 0x6C then some { args with socksAddr := optarg }
      else if letter = 0x4C then some { args with mngAddr := optarg }
      else if letter = 0x70 then (port optarg).map fun socksPort => { args with socksPort }
      else if letter = 0x50 then (port optarg).map fun mngPort => { args with mngPort }
      else if letter = 0x75 then addUserArg args optarg
      else if letter = 0x61 then (user optarg).map fun admin => { args with admin := some admin }
      else if letter = 0x6F then some { args with accessLogPath := optarg }
      else none

/-- `parse_args` on what follows the program's name. -/
def parseArgs (argv : List CString) : Option Socks5Args :=
  let (options, operands) := getoptLong none argv
  match options.foldlM parseOption defaultArgs with
  | none => none
  | some args => if operands = [] then some args else none

/-! ## What main() sets up -/

/-- The loop of `main()` that fills the store; what `users_add` returns is not looked at. -/
def seedUsers (s : Users) : List User → Users
  | [] => s
  | given :: rest => seedUsers ((usersAdd s given.name given.pass).getD s) rest

/-- The resources of the management service when the server starts. The file of the access log may
hold records already, or may not have been opened. -/
def mgmtDepsInit (args : Socks5Args) (accessLog : AccessLog) : MgmtDeps where
  users := seedUsers usersInit args.users
  metrics := metricsInit
  config := configInit (UInt32.ofNat FD_SETSIZE)
  accessLog
  logOpens := true
  admin := adminInit ⟨CharArray.zero, CharArray.zero⟩ (args.admin.map User.name)
    (args.admin.map User.pass)

end SocksProxy
