import Dot1xCP.Auth.Packages
import Dot1xCP.Broker.PipeName
import Dot1xCP.Core.Credential

/-! The calls of `CpLog`, the texts they are given, and the file they write.

`swprintf_s` ends the process when a text and its terminator do not fit the buffer. The
arguments of `%s` and `%S` are C strings.
-/

set_option autoImplicit false

namespace Dot1xCP.Log
open Format Broker.PipeName Auth

inductive PipeNameLog where
  | fallback
  | guid
  | fallback2
  deriving DecidableEq, Repr

inductive Sddl where
  | strict
  | relax
  deriving DecidableEq, Repr

inductive ReadFailure where
  | createEvent (err : UInt32)
  | emptyRead
  | emptyMoreData
  | tooLarge
  | brokenPipe
  | readFile (le : UInt32)
  | emptyTransfer
  | overlappedBrokenPipe
  | overlapped (gle : UInt32)
  deriving DecidableEq, Repr

/-- Every place that calls `CpLog`, by what it writes. -/
inductive LogCall where
  -- ProviderBrokerSession.cpp
  | brokerDidNotExit
  | terminateProcessFailed (err : UInt32)
  | waitForSingleObjectFailed (err : UInt32)
  -- ProviderPipe.cpp
  | brokerPathNotFound (err : UInt32)
  | launchBrokerCmd (name : Text)
  | breakawayFailed (firstErr : UInt32)
  | withoutBreakaway
  | brokerLaunchFailed (le : UInt32)
  | brokerLaunched (pid : UInt32) (usedBreakaway : Bool)
  -- ProviderPipeTransport.cpp
  | pipeName (log : PipeNameLog) (name : Text)
  | createNamedPipeFailed (err : UInt32) (sddl : Sddl)
  | createNamedPipeFailedFinal (err : UInt32)
  | read (failure : ReadFailure)
  -- ProviderSerialization.cpp
  | brokerExitCode (ec : UInt32)
  | pipeCreateFailed (err : UInt32)
  | launchFailed
  | connectExited
  | connectTimeout
  | connectFailed
  | sessionStarted
  | readExited
  | readTimeout
  | noResponse
  | autoRecover
  | parseFailed
  | authPending
  | authIdle
  | authFail
  | authFallback
  | unknownMessageType
  | serializationFailed
  | packedOk (authPkg size : UInt32)
  | authSuccess
  -- Serialization.cpp and SerializationAuth.cpp
  | localAccount
  | domainAccount
  | attemptConnect
  | deregisterFailed (stClose : UInt32)
  | connectUntrustedFailed (st : UInt32)
  | connected
  | lookingUp (package : Package)
  | lookupFailed (package : Package) (st : UInt32)
  | lookupZero (package : Package)
  | found (package : Package) (t : UInt32)
  | resolveNegotiate
  -- ProviderCore.cpp
  | logonInit
  | logonReEnter
  | logonSupported
  | nonLogon
  | unlockNotSupported
  | setSelected (logon active awaiting force autoSubmit : Bool)
  | setDeselected
  | reportResult (ntsStatus ntsSubstatus : UInt32) (cpus : Broker.UsageScenario)
  deriving DecidableEq, Repr

/-- A text, and the size of the buffer if it is `swprintf_s` that makes it. -/
abbrev Texts := Option Nat × List Piece

def plain (s : String) : Texts := (none, [literal s])

def withError (size : Nat) (s : String) (err : UInt32) : Texts :=
  (some size, [literal s, .unsigned err])

def withStatus (s : String) (st : UInt32) : Texts := (some 256, [literal s, .hex 8 st.toNat])

def flag (b : Bool) : Piece := .signed (if b then 1 else 0)

def packageName : Package → Piece
  | .kerberos => literal "Kerberos"
  | .msv => literal "MICROSOFT_AUTHENTICATION_PACKAGE_V1_0"

def Sddl.text : Sddl → Piece
  | .strict => literal "D:(A;;GA;;;SY)(A;;GA;;;BA)(A;;GA;;;IU)"
  | .relax => literal "D:(A;;GA;;;SY)(A;;GA;;;BA)(A;;GA;;;AU)"

def ReadFailure.texts : ReadFailure → Texts
  | .createEvent err => withError 128 "ReadPipeMessageWithTimeout: CreateEventW failed err=" err
  | .emptyRead => plain "ReadPipeMessageWithTimeout: ReadFile ok but cbRead=0"
  | .emptyMoreData => plain "ReadPipeMessageWithTimeout: ERROR_MORE_DATA with cbRead=0"
  | .tooLarge => plain "ReadPipeMessageWithTimeout: message too large"
  | .brokenPipe => plain "ReadPipeMessageWithTimeout: ERROR_BROKEN_PIPE"
  | .readFile le => withError 128 "ReadPipeMessageWithTimeout: ReadFile failed err=" le
  | .emptyTransfer => plain "ReadPipeMessageWithTimeout: transferred=0"
  | .overlappedBrokenPipe => plain "ReadPipeMessageWithTimeout: GetOverlappedResult ERROR_BROKEN_PIPE"
  | .overlapped gle =>
    withError 128 "ReadPipeMessageWithTimeout: GetOverlappedResult failed err=" gle

def cpusNumber : Broker.UsageScenario → Int32
  | .invalid => 0
  | .logon => 1
  | .unlockWorkstation => 2
  | .changePassword => 3
  | .credUI => 4
  | .plap => 5

def LogCall.texts : LogCall → Texts
  | .brokerDidNotExit => plain "broker did not exit within timeout; terminating process"
  | .terminateProcessFailed err => withError 160 "TerminateProcess failed err=" err
  | .waitForSingleObjectFailed err => withError 160 "WaitForSingleObject failed err=" err
  | .brokerPathNotFound err =>
    (some 320, [literal "broker path not found: ", .string brokerPath, literal " (err=", .unsigned err,
      literal ")"])
  | .launchBrokerCmd name => (none, [literal "launch broker cmd: ", .string (launchCommand name)])
  | .breakawayFailed firstErr =>
    (some 160, [literal "CreateProcess with BREAKAWAY failed err=", .unsigned firstErr,
      literal ". retry without BREAKAWAY."])
  | .withoutBreakaway => plain "CreateProcess fallback without BREAKAWAY succeeded."
  | .brokerLaunchFailed le =>
    (some 128, [literal "broker launch failed (err=", .unsigned le, literal ")"])
  | .brokerLaunched pid usedBreakaway =>
    (some 160, [literal "broker launched pid=", .unsigned pid, literal " (breakaway=",
      literal (if usedBreakaway then "true" else "false"), literal ")"])
  | .pipeName .fallback name => (none, [literal "pipe name(fallback): ", .string name])
  | .pipeName .guid name => (none, [literal "pipe name: ", .string name])
  | .pipeName .fallback2 name => (none, [literal "pipe name(fallback2): ", .string name])
  | .createNamedPipeFailed err sddl =>
    (some 256, [literal "CreateNamedPipe failed (err=", .unsigned err, literal ") sddl=", sddl.text])
  | .createNamedPipeFailedFinal err => withError 256 "CreateNamedPipe failed (final, no SA) err=" err
  | .read failure => failure.texts
  | .brokerExitCode ec =>
    (some 192, [literal "broker process exit code (", literal "at readResult", literal ")=0x",
      .hex 8 ec.toNat])
  | .pipeCreateFailed err =>
    (some 256, [literal "pipe create failed (err=", .unsigned err, literal ")"])
  | .launchFailed => plain "broker launch failed"
  | .connectExited => plain "broker exited before pipe connect"
  | .connectTimeout => plain "pipe connect timeout"
  | .connectFailed => plain "pipe connect failed"
  | .sessionStarted => plain "GetSerialization: broker session started."
  | .readExited => plain "broker exited before sending response"
  | .readTimeout => plain "broker read timeout"
  | .noResponse => plain "no response from broker"
  | .autoRecover => plain "broker exited/disconnected -> auto recover"
  | .parseFailed => plain "response parse failed"
  | .authPending => plain "AUTH_PENDING -> waiting final response"
  | .authIdle => plain "AUTH_IDLE -> broker idle"
  | .authFail => plain "AUTH_FAIL"
  | .authFallback => plain "AUTH_FALLBACK"
  | .unknownMessageType => plain "unknown message type"
  | .serializationFailed => plain "serialization build failed"
  | .packedOk authPkg size =>
    (some 128, [literal "packed ok (authPkg=", .unsigned authPkg, literal ", cb=", .unsigned size,
      literal ")"])
  | .authSuccess => plain "AUTH_SUCCESS -> RETURN_CREDENTIAL_FINISHED"
  | .localAccount => plain "PackAutoEx: Local account (domain='.') detected. Using PackMsv (NTLM)."
  | .domainAccount => plain "PackAutoEx: Domain account detected. Using PackKerb (Kerberos)."
  | .attemptConnect => plain "ResolvePkgA: Attempting LsaConnectUntrusted..."
  | .deregisterFailed stClose =>
    withStatus "ResolvePkgA: LsaDeregisterLogonProcess failed, NTSTATUS=0x" stClose
  | .connectUntrustedFailed st =>
    withStatus "ResolvePkgA: LsaConnectUntrusted failed, NTSTATUS=0x" st
  | .connected => plain "ResolvePkgA: LsaConnectUntrusted OK."
  | .lookingUp package =>
    (some 256, [literal "ResolvePkgA: Looking up package '", packageName package, literal "'..."])
  | .lookupFailed package st =>
    (some 256, [literal "ResolvePkgA: LsaLookupAuthenticationPackage failed for '", packageName package,
      literal "', NTSTATUS=0x", .hex 8 st.toNat])
  | .lookupZero package =>
    (some 256, [literal "ResolvePkgA: LsaLookup succeeded for '", packageName package,
      literal "' but returned ID 0. Failing."])
  | .found package t =>
    (some 256, [literal "ResolvePkgA: Found package '", packageName package, literal "', ID=", .unsigned t,
      literal ". Success."])
  | .resolveNegotiate => plain "ResolveNegotiate: Looking up 'Kerberos' package..."
  | .logonInit => plain "SetUsageScenario: LOGON init -> close stale broker session"
  | .logonReEnter => plain "SetUsageScenario: LOGON re-enter with active broker -> keep current session"
  | .logonSupported => plain "SetUsageScenario: LOGON supported"
  | .nonLogon => plain "SetUsageScenario: non-LOGON -> close broker session"
  | .unlockNotSupported => plain "SetUsageScenario: UNLOCK not supported"
  | .setSelected logon active awaiting force autoSubmit =>
    (some 196, [literal "SetSelected: logon=", flag logon, literal " active=", flag active,
      literal " awaiting=", flag awaiting, literal " force=", flag force, literal " autoSubmit=",
      flag autoSubmit])
  | .setDeselected => plain "SetDeselected: closing broker session (tile deselected/unloaded)"
  | .reportResult ntsStatus ntsSubstatus cpus =>
    (some 256, [literal "ReportResult: NT=0x", .hex 8 ntsStatus.toNat, literal ", Sub=0x",
      .hex 8 ntsSubstatus.toNat, literal " (cpus=", .signed (cpusNumber cpus), literal ")"])

structure SystemTime where
  wYear : UInt16
  wMonth : UInt16
  wDay : UInt16
  wHour : UInt16
  wMinute : UInt16
  wSecond : UInt16
  deriving DecidableEq, Repr

structure CpLogOs where
  createFile : Bool
  localTime : SystemTime
  writeFile : Bool
  deriving DecidableEq, Repr

def CpLogOs.reaches (os : CpLogOs) : Bool := os.createFile && os.writeFile

def LogCall.msg (call : LogCall) : Option Text :=
  match call.texts with
  | (none, format) => some (write format)
  | (some size, format) => swprintf size format

def dateFormat (st : SystemTime) : List Piece :=
  [.zeros 4 st.wYear, literal "-", .zeros 2 st.wMonth, literal "-", .zeros 2 st.wDay]

def timeFormat (st : SystemTime) : List Piece :=
  [.zeros 2 st.wHour, literal ":", .zeros 2 st.wMinute, literal ":", .zeros 2 st.wSecond]

def lineFormat (st : SystemTime) (msg : Text) : List Piece :=
  dateFormat st ++ [literal " "] ++ timeFormat st ++ [literal "  ", .string msg, literal "\r\n"]

def cpLog (os : CpLogOs) (file msg : Text) : Option Text :=
  if !os.createFile then some file
  else
    (swprintf 1024 (lineFormat os.localTime msg)).map fun line =>
      -- `wcslen` finds the end of what is written.
      if os.writeFile then file ++ line.takeWhile (· ≠ 0) else file

def logFile (file : Text) : List (LogCall × CpLogOs) → Option Text
  | [] => some file
  | (call, os) :: calls => do
    let msg ← call.msg
    let file ← cpLog os file msg
    logFile file calls

def behindTime : Text → Text
  | 0x20 :: 0x20 :: msg => msg
  | _ :: line => behindTime line
  | [] => []

/-- The messages of the lines of a file. -/
def readLog (file : Text) : List Text :=
  (file.splitOn 0x0A).dropLast.map fun line => (behindTime line).dropLast

/-! ## No text is cut, and none ends a line -/

def printable (c : UInt16) : Bool := 0x20 ≤ c

theorem printable_of_figure (c : UInt16) (isFigure : figure c = true) : printable c = true := by
  simp only [figure, Bool.or_eq_true, beq_iff_eq, Bool.and_eq_true, decide_eq_true_eq] at isFigure
  rcases isFigure with rfl | ⟨low, _⟩
  · rfl
  · exact decide_eq_true (UInt16.le_trans (by decide) low)

def printablePiece : Piece → Bool
  | .string s => s.all printable
  | _ => true

def room : Nat := 984

/-- A text that fits its buffer and the line, whatever the values. -/
structure Texts.Sound (texts : Texts) : Prop where
  fits : ∀ size ∈ texts.1, bound texts.2 < size
  short : bound texts.2 ≤ room
  clean : texts.2.all printablePiece = true

/-- A format of bound `n` without control characters. -/
structure Checked (format : List Piece) (n : Nat) : Prop where
  bound : Format.bound format = n
  clean : format.all printablePiece = true

section Checked
variable {format : List Piece} {n : Nat}

theorem checked_nil : Checked [] 0 := ⟨rfl, rfl⟩

theorem checked_piece {piece : Piece} (clean : printablePiece piece = true) (rest : Checked format n) :
    Checked (piece :: format) (piece.bound + n) where
  bound := by rw [Format.bound, List.map_cons, List.sum_cons, ← rest.bound, Format.bound]
  clean := by rw [List.all_cons, clean, rest.clean, Bool.and_self]

/-- A literal is a list of characters to the kernel. -/
theorem checked_literal (text : List Char)
    (clean : (text.all fun c => printable (.ofNat c.toNat)) = true) (rest : Checked format n) :
    Checked (literal (String.ofList text) :: format) (text.length + n) := by
  have decoded : literal (String.ofList text) = .string (text.map fun c => .ofNat c.toNat) := by
    rw [literal, units, String.toList_ofList]
  have visible : printablePiece (literal (String.ofList text)) = true := by
    rw [decoded, printablePiece, List.all_map]
    exact clean
  have checked := checked_piece visible rest
  rwa [decoded, Piece.bound, List.length_map, ← decoded] at checked

theorem checked_number {piece : Piece} {digits : Nat} (clean : printablePiece piece = true)
    (same : piece.bound = digits) (rest : Checked format n) : Checked (piece :: format) (digits + n) :=
  same ▸ checked_piece clean rest

theorem sound_of_checked {size : Option Nat} (checked : Checked format n)
    (fits : (size.all (n < ·) && n ≤ room) = true) : Texts.Sound (size, format) := by
  rw [Bool.and_eq_true, decide_eq_true_eq] at fits
  refine ⟨fun s same => ?_, checked.bound ▸ fits.2, checked.clean⟩
  cases Option.mem_def.mp same
  exact checked.bound ▸ of_decide_eq_true fits.1

end Checked

def LogCall.name : LogCall → Option Text
  | .launchBrokerCmd name | .pipeName _ name => some name
  | _ => none

theorem name_printable {name : Text} (valid : Valid name) : name.all printable = true := by
  obtain ⟨tail, rfl, _, ordinary⟩ := valid.rooted
  rw [List.all_append, Bool.and_eq_true]
  refine ⟨by decide, List.all_eq_true.mpr fun c inside => decide_eq_true (UInt16.le_iff_toNat_le.mpr ?_)⟩
  exact Nat.le_trans (by decide) (ordinary c inside).1

theorem sound_named {text front name : Text} (valid : Valid name)
    (short : text.length + front.length ≤ 256) (clean : (text ++ front).all printable = true) :
    Texts.Sound (none, [.string text, .string (front ++ name)]) := by
  rw [List.all_append, Bool.and_eq_true] at clean
  have behind : printablePiece (.string (front ++ name)) = true := by
    rw [printablePiece, List.all_append, clean.2, name_printable valid, Bool.and_self]
  refine sound_of_checked (checked_piece clean.1 (checked_piece behind checked_nil)) ?_
  have nameShort := valid.short
  simp only [Option.all_none, Bool.true_and, Piece.bound, List.length_append, room, decide_eq_true_eq]
  omega

theorem LogCall.sound (call : LogCall) (named : ∀ name ∈ call.name, Valid name) : call.texts.Sound := by
  cases call
  case launchBrokerCmd name =>
    exact @sound_named _ (launchCommand []) _ (named name rfl) (by decide) (by decide)
  case pipeName log name =>
    cases log <;> exact @sound_named _ [] _ (named name rfl) (by decide) (by decide)
  case' read failure => cases failure
  case' createNamedPipeFailed err sddl => cases sddl
  case' brokerLaunched pid usedBreakaway => cases usedBreakaway
  case' lookingUp package => cases package
  case' lookupFailed package st => cases package
  case' lookupZero package => cases package
  case' found package t => cases package
  -- The other texts are made of literals and numbers.
  all_goals
    apply sound_of_checked
    · repeat first
        | exact checked_nil
        | apply checked_literal
          · rfl
        | apply checked_number
          · rfl
          · rfl
    · rfl

theorem LogCall.msg_eq {call : LogCall} (named : ∀ name ∈ call.name, Valid name) :
    call.msg = some (write call.texts.2) := by
  have sound := call.sound named
  unfold LogCall.msg
  match call.texts, sound with
  | (none, format), _ => rfl
  | (some size, format), sound =>
    exact if_pos (Nat.lt_of_le_of_lt (length_write_le format) (sound.fits size rfl))

theorem LogCall.msg_sound {call : LogCall} (named : ∀ name ∈ call.name, Valid name) :
    (write call.texts.2).length ≤ room ∧ ∀ c ∈ write call.texts.2, printable c = true := by
  have sound := call.sound named
  exact ⟨Nat.le_trans (length_write_le _) sound.short,
    write_clean printable_of_figure fun s listed => List.all_eq_true.mp sound.clean _ listed⟩

/-! ## The lines of the file -/

theorem write_lineFormat (st : SystemTime) (msg : Text) : write (lineFormat st msg) =
    write (dateFormat st) ++ 0x20 :: write (timeFormat st) ++ 0x20 :: 0x20 :: msg ++ [0x0D, 0x0A] := by
  have pause : write [literal " "] = [0x20] := by decide
  have message : write [literal "  ", .string msg, literal "\r\n"] =
      0x20 :: 0x20 :: msg ++ [0x0D, 0x0A] := rfl
  rw [lineFormat, write_append, write_append, write_append, pause, message]
  simp only [List.append_assoc, List.cons_append, List.nil_append]

theorem dateFormat_figures (st : SystemTime) : ∀ c ∈ write (dateFormat st), figure c = true := by
  refine write_clean (fun _ => id) fun s listed => ?_
  simp only [dateFormat, literal, List.mem_cons, List.not_mem_nil, or_false, reduceCtorEq, false_or,
    Piece.string.injEq, or_self] at listed
  subst listed
  decide

theorem timeFormat_figures (st : SystemTime) : ∀ c ∈ write (timeFormat st), figure c = true := by
  refine write_clean (fun _ => id) fun s listed => ?_
  simp only [timeFormat, literal, List.mem_cons, List.not_mem_nil, or_false, reduceCtorEq, false_or,
    Piece.string.injEq, or_self] at listed
  subst listed
  decide

theorem behindTime_visible {c : UInt16} (visible : c ≠ 0x20) (line : Text) :
    behindTime (c :: line) = behindTime line := by
  rw [behindTime.eq_2]
  rintro msg rfl
  exact absurd rfl visible

theorem behindTime_blank {c : UInt16} (visible : c ≠ 0x20) (line : Text) :
    behindTime (0x20 :: c :: line) = behindTime (c :: line) := by
  rw [behindTime.eq_2]
  rintro msg _ same
  exact visible (List.cons.inj same).1

theorem figure_visible {c : UInt16} (isFigure : figure c = true) : c ≠ 0x20 := by
  rintro rfl
  cases isFigure

theorem behindTime_figures {front : Text} (figures : ∀ c ∈ front, figure c = true) (line : Text) :
    behindTime (front ++ line) = behindTime line := by
  induction front with
  | nil => rfl
  | cons c front ih =>
    rw [List.cons_append, behindTime_visible (figure_visible (figures c List.mem_cons_self)),
      ih fun d inside => figures d (List.mem_cons_of_mem c inside)]

theorem timeFormat_begins (st : SystemTime) : ∃ c front, write (timeFormat st) = c :: front := by
  refine List.exists_cons_of_ne_nil fun empty => ?_
  have length := congrArg List.length empty
  have colon : write [literal ":"] = [0x3A] := by decide
  change (Piece.write _ ++ (write [literal ":"] ++ _)).length = 0 at length
  rw [colon, List.length_append, List.length_append, List.length_singleton] at length
  omega

/-- A message is read back from its line. -/
theorem behindTime_line (st : SystemTime) (msg : Text) :
    behindTime (write (dateFormat st) ++ 0x20 :: write (timeFormat st) ++ 0x20 :: 0x20 :: msg) = msg := by
  have figures := timeFormat_figures st
  obtain ⟨c, front, begins⟩ := timeFormat_begins st
  rw [begins] at figures ⊢
  rw [List.append_assoc, behindTime_figures (dateFormat_figures st), List.cons_append,
    List.cons_append, behindTime_blank (figure_visible (figures c List.mem_cons_self)),
    ← List.cons_append, behindTime_figures figures, behindTime.eq_1]

def lineText (st : SystemTime) (msg : Text) : Text :=
  write (dateFormat st) ++ 0x20 :: write (timeFormat st) ++ 0x20 :: 0x20 :: msg ++ [0x0D]

theorem write_line (st : SystemTime) (msg : Text) :
    write (lineFormat st msg) = lineText st msg ++ [0x0A] := by
  rw [write_lineFormat, lineText, List.append_assoc (_ ++ _) [0x0D] [0x0A]]
  rfl

theorem ne_of_printable {c control : UInt16} (shown : printable c = true)
    (hidden : printable control = false) : c ≠ control := by
  rintro rfl
  exact Bool.false_ne_true (hidden.symm.trans shown)

theorem lineText_free {st : SystemTime} {msg : Text} (clean : ∀ c ∈ msg, printable c = true)
    {control : UInt16} (hidden : printable control = false) (other : (0x0D : UInt16) ≠ control) :
    control ∉ lineText st msg := by
  intro inside
  have shown : printable control = false → control ≠ 0x20 := fun _ same => by
    rw [same] at hidden
    cases hidden
  simp only [lineText, List.mem_append, List.mem_cons, List.not_mem_nil, or_false] at inside
  rcases inside with ((date | blank | time) | blank | blank | inside) | same
  · exact ne_of_printable (printable_of_figure _ (dateFormat_figures st _ date)) hidden rfl
  · exact shown hidden blank
  · exact ne_of_printable (printable_of_figure _ (timeFormat_figures st _ time)) hidden rfl
  · exact shown hidden blank
  · exact shown hidden blank
  · exact ne_of_printable (clean _ inside) hidden rfl
  · exact other same.symm

theorem bound_lineFormat (st : SystemTime) (msg : Text) :
    bound (lineFormat st msg) = 39 + msg.length := by
  have front : bound (dateFormat st ++ [literal " "] ++ timeFormat st) = 35 := rfl
  have back : bound [literal "  ", .string msg, literal "\r\n"] = 2 + (msg.length + 2) := rfl
  rw [lineFormat, bound_append, front, back]
  omega

theorem cpLog_eq {msg : Text} (short : msg.length ≤ room) (clean : ∀ c ∈ msg, printable c = true)
    (os : CpLogOs) (file : Text) : cpLog os file msg =
      some (if os.reaches then file ++ (lineText os.localTime msg ++ [0x0A])
        else file) := by
  cases opened : os.createFile with
  | false => simp only [cpLog, CpLogOs.reaches, opened, Bool.not_false, if_true, Bool.false_and,
      Bool.false_eq_true, if_false]
  | true =>
    have fits : (write (lineFormat os.localTime msg)).length < 1024 := by
      refine Nat.lt_of_le_of_lt (length_write_le _) ?_
      rw [bound_lineFormat]
      exact Nat.lt_of_le_of_lt (Nat.add_le_add_left short 39) (by decide)
    have whole : (write (lineFormat os.localTime msg)).takeWhile (· ≠ 0) =
        lineText os.localTime msg ++ [0x0A] := by
      rw [write_line, List.takeWhile_eq_self_iff]
      intro c inside
      refine decide_eq_true fun same => ?_
      rcases List.mem_append.mp inside with line | last
      · exact @lineText_free os.localTime msg clean 0 rfl (by decide) (same ▸ line)
      · cases (List.mem_singleton.mp last).symm.trans same
    simp only [cpLog, CpLogOs.reaches, opened, Bool.not_true, Bool.false_eq_true, if_false, swprintf,
      if_pos fits, whole, Option.map_some, Bool.true_and]

def lines : List (LogCall × CpLogOs) → Text
  | [] => []
  | (call, os) :: calls =>
    (if os.reaches then lineText os.localTime (write call.texts.2) ++ [0x0A] else []) ++
      lines calls

def messages (calls : List (LogCall × CpLogOs)) : List Text :=
  (calls.filter fun call => call.2.reaches).map fun call => write call.1.texts.2

section File
variable {calls : List (LogCall × CpLogOs)} (named : ∀ call ∈ calls, ∀ name ∈ call.1.name, Valid name)
include named

theorem logFile_eq (file : Text) : logFile file calls = some (file ++ lines calls) := by
  induction calls generalizing file with
  | nil => rw [logFile, lines, List.append_nil]
  | cons first calls ih =>
    obtain ⟨call, os⟩ := first
    have own := named _ List.mem_cons_self
    obtain ⟨short, clean⟩ := call.msg_sound own
    have rest := ih fun other inside => named other (List.mem_cons_of_mem _ inside)
    rw [logFile, call.msg_eq own, Option.bind_eq_bind, Option.bind_some, cpLog_eq short clean,
      Option.bind_some, rest, lines]
    split
    · rw [List.append_assoc]
    · rw [List.nil_append]

theorem splitOn_lines : (lines calls).splitOn 0x0A =
    (calls.filter fun call => call.2.reaches).map
      (fun call => lineText call.2.localTime (write call.1.texts.2)) ++ [[]] := by
  induction calls with
  | nil => rfl
  | cons first calls ih =>
    obtain ⟨call, os⟩ := first
    obtain ⟨_, clean⟩ := call.msg_sound (named _ List.mem_cons_self)
    have rest := ih fun other inside => named other (List.mem_cons_of_mem _ inside)
    by_cases kept : os.reaches = true
    · rw [lines, if_pos kept, List.append_assoc, List.singleton_append,
        List.splitOn_append_cons_self_of_not_mem (lineText_free clean rfl (by decide)), rest,
        @List.filter_cons_of_pos _ _ (call, os) _ kept, List.map_cons, List.cons_append]
    · rw [lines, if_neg kept, List.nil_append, rest, @List.filter_cons_of_neg _ _ (call, os) _ kept]

/-- The file gets one line for each call that reaches it, and the line shows its message. -/
theorem readLog_lines {file : Text} (complete : file = [] ∨ ∃ front, file = front ++ [0x0A]) :
    readLog (file ++ lines calls) = readLog file ++ messages calls := by
  have shown : (((lines calls).splitOn 0x0A).dropLast.map fun line => (behindTime line).dropLast) =
      messages calls := by
    rw [splitOn_lines named, List.dropLast_concat, List.map_map, messages]
    refine List.map_congr_left fun call _ => ?_
    change (behindTime (lineText call.2.localTime (write call.1.texts.2))).dropLast = _
    rw [lineText, List.append_assoc, List.cons_append, List.cons_append, behindTime_line,
      List.dropLast_concat]
  rcases complete with rfl | ⟨front, rfl⟩
  · exact shown
  · have before : (front ++ [0x0A]).splitOn 0x0A = front.splitOn 0x0A ++ [[]] :=
      List.splitOn_append_cons_self front []
    rw [readLog, readLog, before, List.append_assoc, List.singleton_append,
      List.splitOn_append_cons_self, List.dropLast_concat,
      List.dropLast_append_of_ne_nil (List.splitOn_ne_nil _ _), List.map_append, shown]

end File

end Dot1xCP.Log
