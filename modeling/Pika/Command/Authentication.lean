import Pika.Command.Effects
import Pika.Foundation.Transition

/-!
# Authentication of client connections

A connection starts with the permissions `AuthStat::Init` gives it, and AUTH
raises them through the text of its reply.  `DoCmd` lets a command pass if the
permissions allow it.  An empty `requirepass` is compared like any other: AUTH
with an empty string is taken for the administrator.
-/

namespace Pika.Command

open Foundation
open Binlog (Bytes)

/-- `AuthStat::StatType`. -/
inductive StatType where
  | kNoAuthed | kAdminAuthed | kLimitAuthed
  deriving DecidableEq, Repr

structure Passwords where
  requirepass : Bytes
  userpass : Bytes
  deriving DecidableEq

/-- `AuthStat::Init`. -/
def Passwords.init (passwords : Passwords) : StatType :=
  if passwords.userpass = [] then
    if passwords.requirepass = [] then .kAdminAuthed else .kLimitAuthed
  else .kNoAuthed

def kCmdFlagsMaskAdminRequire : Nat := 256
def kCmdFlagsAdminRequire : Nat := 256

/-- `is_admin_require()`. -/
def CommandName.isAdminRequire (command : CommandName) : Bool :=
  command.registration.flag &&& kCmdFlagsMaskAdminRequire == kCmdFlagsAdminRequire

/-- The command needs an administrator. -/
def restricted (blacklist : List Bytes) (command : CommandName) : Bool :=
  command.isAdminRequire || blacklist.contains command.name

/-- `AuthStat::IsAuthed`. -/
def StatType.isAuthed (blacklist : List Bytes) (command : CommandName) (stat : StatType) : Bool :=
  if command = .authCmd then true
  else
    match stat with
    | kNoAuthed => false
    | kAdminAuthed => true
    | kLimitAuthed => !restricted blacklist command

/-- `AuthStat::ChecknUpdate`. -/
def StatType.checknUpdate (message : String) (stat : StatType) : StatType :=
  if message = "USER" then kLimitAuthed
  else if message = "ROOT" then kAdminAuthed
  else stat

/-- What AUTH can reply. -/
inductive AuthRes where
  /-- `kErrOther`: no password is set. -/
  | noPassword
  | kInvalidPwd
  /-- `kOk` with the text that updates the permissions. -/
  | kOk (message : String)
  deriving DecidableEq

/-- `AuthCmd::Do` up to `ChecknUpdate`. -/
def Passwords.authDo (passwords : Passwords) (pwd : Bytes) : AuthRes :=
  if passwords.userpass = [] ∧ passwords.requirepass = [] then .noPassword
  else
    let user := if pwd = passwords.userpass then some "USER" else none
    let message := if pwd = passwords.requirepass then some "ROOT" else user
    match message with
    | none => .kInvalidPwd
    | some message => .kOk message

/-- `AuthCmd::Do`. -/
def StatType.auth (passwords : Passwords) (pwd : Bytes) (stat : StatType) : StatType :=
  match passwords.authDo pwd with
  | .kOk message => stat.checknUpdate message
  | _ => stat

/-- A request, with what `DoCmd` reads of the server meanwhile. -/
structure ClientRequest where
  argv : List Bytes
  blacklist : List Bytes
  isPubSub : Bool
  binlogIoError : Bool
  readonly : Bool
  /-- The current table's partition and its sync partition exist. -/
  found : Bool

/-- `Initial`, with that of AUTH spelled out. -/
def clientInitial (otherInitial : OtherInitial) (command : CommandName)
    (argv : List Bytes) : Except CmdRet Unit :=
  if command = .authCmd then
    if command.checkArg argv.length then .ok ()
    else .error (.kWrongNum command.registration.name)
  else (initial otherInitial command argv).map fun _ => ()

/-- The commands of a subscribed connection. -/
def pubSubCommands : List CommandName :=
  [.subscribeCmd, .unSubscribeCmd, .pingCmd, .pSubscribeCmd, .pUnSubscribeCmd]

/-- The error with which `DoCmd` refuses an authenticated command before it
executes it. -/
def ClientRequest.refusal (otherInitial : OtherInitial) (command : CommandName)
    (request : ClientRequest) : Option CmdRet :=
  match clientInitial otherInitial command request.argv with
  | .error ret => some ret
  | .ok _ =>
    if request.isPubSub && !pubSubCommands.contains command then
      some (.kErrOther "only (P)SUBSCRIBE / (P)UNSUBSCRIBE / PING / QUIT allowed in this context")
    else Command.refusal request.binlogIoError request.readonly command request.argv

/-- How `DoCmd` returns. -/
inductive Answer where
  /-- The command is not in the table. -/
  | unknown (opt : Bytes)
  | refused (ret : CmdRet)
  | executed
  deriving DecidableEq

/-- The way of a request through `DoCmd` up to `Execute`. -/
def StatType.doCmd (otherInitial : OtherInitial) (request : ClientRequest)
    (stat : StatType) : Answer :=
  match getCmd request.argv with
  | none => .unknown (argument request.argv 0)
  | some command =>
    if stat.isAuthed request.blacklist command then
      match request.refusal otherInitial command with
      | some ret => .refused ret
      | none => .executed
    else if command.isAdminRequire then .refused (.kErrOther "NOAUTH Authentication required.")
    else .refused (.kErrOther "Command is in blacklist.")

/-- A command that was executed. -/
structure Execution where
  command : CommandName
  /-- It needed an administrator. -/
  restricted : Bool
  /-- The strings sent with AUTH until then. -/
  sent : List Bytes
  deriving DecidableEq

structure Connection where
  stat : StatType
  /-- The strings sent with AUTH. -/
  sent : List Bytes
  executed : List Execution
  deriving DecidableEq

/-- The string a request sends with AUTH. -/
def ClientRequest.password (request : ClientRequest) : Option Bytes :=
  if getCmd request.argv = some .authCmd ∧ request.argv.length = 2 then
    some (argument request.argv 1)
  else none

namespace Connection

/-- The constructor. -/
def initial (passwords : Passwords) : Connection where
  stat := passwords.init
  sent := []
  executed := []

/-- The strings sent with AUTH, a request included. -/
def sentWith (request : ClientRequest) (conn : Connection) : List Bytes :=
  conn.sent ++ request.password.toList

/-- `Execute`, of which the connection notices AUTH only. -/
def execute (passwords : Passwords) (command : CommandName)
    (request : ClientRequest) (conn : Connection) : Connection where
  stat :=
    if command = .authCmd ∧ request.found = true then
      conn.stat.auth passwords (argument request.argv 1)
    else conn.stat
  sent := conn.sentWith request
  executed := conn.executed ++
    [{ command := command
       restricted := restricted request.blacklist command
       sent := conn.sentWith request }]

def step (otherInitial : OtherInitial) (passwords : Passwords)
    (conn : Connection) (request : ClientRequest) : Option Connection :=
  some <| match getCmd request.argv, conn.stat.doCmd otherInitial request with
    | some command, .executed => conn.execute passwords command request
    | _, _ => { conn with sent := conn.sentWith request }

/-- A command other than AUTH is executed only after a configured password was
sent, and a restricted one only after the administrator's, none of them
empty. -/
def Guarded (passwords : Passwords) (conn : Connection) : Prop :=
  ∀ execution ∈ conn.executed, (execution.command ≠ .authCmd → ∃ pwd ∈ execution.sent, pwd ≠ [] ∧
        (pwd = passwords.requirepass ∨ pwd = passwords.userpass)) ∧
    (execution.restricted = true → passwords.requirepass ≠ [] ∧
        passwords.requirepass ∈ execution.sent)

/-- The administrator's permissions, obtained with an empty password, are used
only for what the user's password allows, and AUTH is blacklisted only for those
who have sent the administrator's password. -/
def Entitled (otherInitial : OtherInitial) (passwords : Passwords)
    (conn : Connection) (request : ClientRequest) : Prop :=
  ∀ command, getCmd request.argv = some command → request.refusal otherInitial command = none →
      (command ≠ .authCmd → conn.stat = .kAdminAuthed → passwords.requirepass = [] →
          passwords.userpass ∈ conn.sent ∧ restricted request.blacklist command = false) ∧
      (command = .authCmd → restricted request.blacklist command = true →
        passwords.requirepass ≠ [] ∧ passwords.requirepass ∈ conn.sentWith request)

/-- The permissions come from passwords that were sent. -/
structure Justified (passwords : Passwords) (conn : Connection) : Prop where
  guarded : conn.Guarded passwords
  limit : conn.stat = .kLimitAuthed → passwords.userpass ∈ conn.sent
  /-- All permissions. -/
  admin : conn.stat = .kAdminAuthed → passwords.requirepass ∈ conn.sent

variable {otherInitial : OtherInitial} {passwords : Passwords}
variable {conn next : Connection} {request : ClientRequest}
variable {command : CommandName}

theorem justified_initial (required : passwords.userpass ≠ []) :
    (initial passwords).Justified passwords := by
  have stat : (initial passwords).stat = .kNoAuthed := by simp [initial, Passwords.init, required]
  refine ⟨nofun, ?_, ?_⟩
  · intro limited
    cases stat.symm.trans limited
  · intro all
    cases stat.symm.trans all

theorem doCmd_eq_executed_iff :
    conn.stat.doCmd otherInitial request = .executed ↔
      ∃ command, getCmd request.argv = some command ∧
        conn.stat.isAuthed request.blacklist command = true ∧
        request.refusal otherInitial command = none := by
  unfold StatType.doCmd
  cases named : getCmd request.argv with
  | none => simp
  | some command =>
    by_cases authed : conn.stat.isAuthed request.blacklist command = true
    · cases refused : request.refusal otherInitial command <;> simp [authed, refused]
    · by_cases needed : command.isAdminRequire = true <;> simp [authed, needed]

/-- What a request can do to a connection. -/
theorem step_eq (otherInitial : OtherInitial) (passwords : Passwords)
    (conn : Connection) (request : ClientRequest) :
    (∃ command, getCmd request.argv = some command ∧
        conn.stat.isAuthed request.blacklist command = true ∧
        request.refusal otherInitial command = none ∧
        conn.step otherInitial passwords request = some (conn.execute passwords command request)) ∨
      (conn.stat.doCmd otherInitial request ≠ .executed ∧
        conn.step otherInitial passwords request =
          some { conn with sent := conn.sentWith request }) := by
  by_cases executes : conn.stat.doCmd otherInitial request = .executed
  · obtain ⟨command, named, authed, accepted⟩ := doCmd_eq_executed_iff.mp executes
    refine .inl ⟨command, named, authed, accepted, ?_⟩
    simp [step, named, executes]
  · refine .inr ⟨executes, ?_⟩
    unfold step
    split
    · contradiction
    · rfl

theorem mem_sentWith (sent : pwd ∈ conn.sent) : pwd ∈ conn.sentWith request :=
  List.mem_append_left _ sent

theorem sentWith_eq_sent (named : getCmd request.argv = some command) (other : command ≠ .authCmd) :
    conn.sentWith request = conn.sent := by
  simp [sentWith, ClientRequest.password, named, other]

theorem argument_mem_sentWith (named : getCmd request.argv = some .authCmd)
    (accepted : request.refusal otherInitial .authCmd = none) :
    argument request.argv 1 ∈ conn.sentWith request := by
  have two : request.argv.length = 2 := by
    by_contra wrong
    have refused : CommandName.checkArg .authCmd request.argv.length = false := by
      simp [CommandName.checkArg, CommandName.registration]
      omega
    simp [ClientRequest.refusal, clientInitial, refused] at accepted
  simp [sentWith, ClientRequest.password, named, two]

theorem auth_cases (stat : StatType) (passwords : Passwords) (pwd : Bytes) :
    stat.auth passwords pwd = stat ∨
      (stat.auth passwords pwd = .kLimitAuthed ∧ pwd = passwords.userpass) ∨
      (stat.auth passwords pwd = .kAdminAuthed ∧ pwd = passwords.requirepass) := by
  by_cases unset : passwords.userpass = [] ∧ passwords.requirepass = []
  · exact .inl (by simp [StatType.auth, Passwords.authDo, unset])
  · by_cases root : pwd = passwords.requirepass
    · refine .inr (.inr ⟨?_, root⟩)
      simp [StatType.auth, Passwords.authDo, unset, root, StatType.checknUpdate]
    · by_cases user : pwd = passwords.userpass
      · refine .inr (.inl ⟨?_, user⟩)
        simp only [StatType.auth, Passwords.authDo, if_neg unset, if_neg root, if_pos user]
        rfl
      · exact .inl (by
          simp [StatType.auth, Passwords.authDo, unset, root, user])

/-- The permissions stay justified when a command is executed. -/
theorem Justified.stat_execute (justified : conn.Justified passwords)
    (named : getCmd request.argv = some command)
    (accepted : request.refusal otherInitial command = none) :
    ((conn.execute passwords command request).stat = .kLimitAuthed →
        passwords.userpass ∈ conn.sentWith request) ∧
      ((conn.execute passwords command request).stat = .kAdminAuthed →
        passwords.requirepass ∈ conn.sentWith request) := by
  have unchanged : (conn.stat = .kLimitAuthed → passwords.userpass ∈ conn.sentWith request) ∧
      (conn.stat = .kAdminAuthed → passwords.requirepass ∈ conn.sentWith request) :=
    ⟨fun limited => mem_sentWith (justified.limit limited),
      fun all => mem_sentWith (justified.admin all)⟩
  by_cases auth : command = .authCmd ∧ request.found = true
  · obtain ⟨rfl, -⟩ := id auth
    have sent : argument request.argv 1 ∈ conn.sentWith request :=
      argument_mem_sentWith named accepted
    simp only [execute, auth, and_self, if_true]
    rcases auth_cases conn.stat passwords (argument request.argv 1) with
      same | ⟨limited, user⟩ | ⟨all, root⟩
    · rw [same]
      exact unchanged
    · rw [limited, ← user]
      exact ⟨fun _ => sent, nofun⟩
    · rw [all, ← root]
      exact ⟨nofun, fun _ => sent⟩
  · simpa only [execute, auth, if_false] using unchanged

theorem guarded_execute (guarded : conn.Guarded passwords) :
    (conn.execute passwords command request).Guarded passwords ↔ (command ≠ .authCmd →
        ∃ pwd ∈ conn.sentWith request, pwd ≠ [] ∧
          (pwd = passwords.requirepass ∨ pwd = passwords.userpass)) ∧
      (restricted request.blacklist command = true → passwords.requirepass ≠ [] ∧
          passwords.requirepass ∈ conn.sentWith request) := by
  constructor
  · intro after
    exact after _ (List.mem_append_right _ (List.mem_singleton_self _))
  · intro new execution member
    rcases List.mem_append.mp member with old | same
    · exact guarded execution old
    · rw [List.mem_singleton.mp same]
      exact new

/-- What the permissions of another command than AUTH come from. -/
theorem Justified.of_isAuthed (justified : conn.Justified passwords) (other : command ≠ .authCmd)
    (authed : conn.stat.isAuthed request.blacklist command = true) :
    (conn.stat = .kAdminAuthed ∧ passwords.requirepass ∈ conn.sent) ∨
      (conn.stat = .kLimitAuthed ∧ passwords.userpass ∈ conn.sent ∧
        restricted request.blacklist command = false) := by
  cases statEq : conn.stat with
  | kNoAuthed => simp [StatType.isAuthed, other, statEq] at authed
  | kAdminAuthed => exact .inl ⟨rfl, justified.admin statEq⟩
  | kLimitAuthed =>
    refine .inr ⟨rfl, justified.limit statEq, ?_⟩
    simpa [StatType.isAuthed, other, statEq] using authed

/-- What is executed is guarded exactly if the request is entitled to it. -/
theorem guarded_execute_iff (required : passwords.userpass ≠ [])
    (justified : conn.Justified passwords) (named : getCmd request.argv = some command)
    (authed : conn.stat.isAuthed request.blacklist command = true)
    (accepted : request.refusal otherInitial command = none) :
    (conn.execute passwords command request).Guarded passwords ↔
      conn.Entitled otherInitial passwords request := by
  rw [guarded_execute justified.guarded]
  simp only [Entitled, named, Option.some.injEq, forall_eq', accepted, forall_const]
  by_cases auth : command = .authCmd
  · simp [auth]
  · rw [sentWith_eq_sent named auth]
    simp only [ne_eq, auth, not_false_eq_true, forall_const, false_implies, and_true]
    constructor
    · rintro ⟨⟨pwd, sent, nonempty, root | user⟩, admin⟩ _ unset
      · exact absurd (root.trans unset) nonempty
      · refine ⟨user ▸ sent, Bool.eq_false_iff.mpr fun needed => ?_⟩
        exact (admin needed).1 unset
    · intro entitled
      rcases justified.of_isAuthed auth authed with
        ⟨all, sent⟩ | ⟨-, sent, free⟩
      · by_cases unset : passwords.requirepass = []
        · obtain ⟨user, free⟩ := entitled all unset
          exact ⟨⟨_, user, required, .inr rfl⟩, by simp [free]⟩
        · exact ⟨⟨_, sent, unset, .inl rfl⟩, fun _ => ⟨unset, sent⟩⟩
      · exact ⟨⟨_, sent, required, .inr rfl⟩, by simp [free]⟩

theorem Justified.step (required : passwords.userpass ≠ []) (justified : conn.Justified passwords)
    (entitled : conn.Entitled otherInitial passwords request)
    (stepped : conn.step otherInitial passwords request = some next) :
    next.Justified passwords := by
  rcases step_eq otherInitial passwords conn request with
    ⟨command, named, authed, accepted, taken⟩ | ⟨-, taken⟩
  · cases taken.symm.trans stepped
    obtain ⟨limit, admin⟩ := justified.stat_execute named accepted
    exact ⟨(guarded_execute_iff required justified named authed accepted).mpr
      entitled, limit, admin⟩
  · cases taken.symm.trans stepped
    exact ⟨justified.guarded, fun limited => mem_sentWith (justified.limit limited),
      fun all => mem_sentWith (justified.admin all)⟩

/-- A request that is not entitled to what it does is executed. -/
theorem Justified.noticed (required : passwords.userpass ≠ [])
    (justified : conn.Justified passwords)
    (breaks : ¬conn.Entitled otherInitial passwords request) :
    ∃ next, conn.step otherInitial passwords request = some next ∧ ¬next.Guarded passwords := by
  rcases step_eq otherInitial passwords conn request with
    ⟨command, named, authed, accepted, taken⟩ | ⟨unexecuted, -⟩
  · refine ⟨_, taken, ?_⟩
    rwa [guarded_execute_iff required justified named authed accepted]
  · exfalso
    apply breaks
    intro command named accepted
    have refused : ¬conn.stat.isAuthed request.blacklist command = true :=
      fun authed => unexecuted (doCmd_eq_executed_iff.mpr ⟨command, named, authed, accepted⟩)
    refine ⟨?_, ?_⟩
    · intro other all
      simp [StatType.isAuthed, other, all] at refused
    · rintro rfl
      simp [StatType.isAuthed] at refused

/-- With a user password set, every command a connection executes is guarded
by a password, if and only if every request is entitled to what it does. -/
theorem guarded_iff_entitled (otherInitial : OtherInitial)
    (passwords : Passwords) (required : passwords.userpass ≠ []) (requests : List ClientRequest) :
    RunSatisfies (step otherInitial passwords) (Guarded passwords) (initial passwords) requests ↔
      RunAdmissible (step otherInitial passwords)
        (Entitled otherInitial passwords) (initial passwords) requests :=
  runSatisfies_iff_runSafe Justified.guarded (Justified.step required)
    (Justified.noticed required) (justified_initial required)

/-- A request as most are. -/
def plainRequest (argv : List Bytes) : ClientRequest where
  argv := argv
  blacklist := []
  isPubSub := false
  binlogIoError := false
  readonly := false
  found := true

/-- With both passwords set, `AUTH user` and `GET k` are guarded. -/
theorem guarded_user_get :
    RunSatisfies (step (fun _ _ => .ok ())
        { requirepass := ascii "root", userpass := ascii "user" })
      (Guarded { requirepass := ascii "root", userpass := ascii "user" })
      (initial { requirepass := ascii "root", userpass := ascii "user" })
      [plainRequest [ascii "auth", ascii "user"], plainRequest [ascii "get", ascii "k"]] := by
  have entitled : ∀ (conn : Connection) argv, conn.Entitled (fun _ _ => .ok ())
        { requirepass := ascii "root", userpass := ascii "user" }
        (plainRequest argv) := by
    intro conn argv command _ _
    refine ⟨fun _ _ unset => absurd unset (by decide), ?_⟩
    rintro rfl needed
    have free : restricted [] .authCmd = false := by decide
    exact absurd (free.symm.trans needed) nofun
  exact (guarded_iff_entitled _ _ (by decide) _).mpr
    ⟨entitled _ _, fun _ _ => ⟨entitled _ _, fun _ _ => trivial⟩⟩

/-- A connection that has sent AUTH with an empty string and was taken for the
administrator, with what it executed since. -/
def emptyAuthed (commands : List CommandName) : Connection where
  stat := .kAdminAuthed
  sent := [[]]
  executed := (.authCmd :: commands).map fun command =>
    { command := command, restricted := false, sent := [[]] }

/-- Without an administrator's password, AUTH with an empty string opens the
connection to `GET k`. -/
theorem not_guarded_emptyAuth :
    ¬RunSatisfies (step (fun _ _ => .ok ())
        { requirepass := [], userpass := ascii "user" })
      (Guarded { requirepass := [], userpass := ascii "user" })
      (initial { requirepass := [], userpass := ascii "user" })
      [plainRequest [ascii "auth", []], plainRequest [ascii "get", ascii "k"]] := by
  intro guarded
  have opened : step (fun _ _ => .ok ())
      { requirepass := [], userpass := ascii "user" }
      (initial { requirepass := [], userpass := ascii "user" })
      (plainRequest [ascii "auth", []]) = some (emptyAuthed []) := by
    decide +kernel
  have served : step (fun _ _ => .ok ())
      { requirepass := [], userpass := ascii "user" } (emptyAuthed [])
      (plainRequest [ascii "get", ascii "k"]) = some (emptyAuthed [.getCmd]) := by
    decide +kernel
  have after : Guarded _ (emptyAuthed [.getCmd]) := (guarded.2 _ opened).2 _ served
  obtain ⟨pwd, sent, nonempty, -⟩ := (after
    { command := .getCmd, restricted := false, sent := [[]] }
    (by decide)).1 nofun
  exact nonempty (List.mem_singleton.mp sent)

end Connection

end Pika.Command
