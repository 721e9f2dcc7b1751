import Dot1xCP.Setup.Strings

/-! `WriteBrokerAppSettings`: the broker's configuration, as the installer writes it.

The document is a concatenation of lines around four escaped strings. Whatever the wizard
returns, it is one object with the same members.
-/

set_option autoImplicit false

namespace Dot1xCP.Setup

/-- What the wizard pages return. The check box is none while it is not assigned. -/
structure WizardPages where
  titleText : PascalString
  subtitleText : PascalString
  backgroundImage : PascalString
  logoImage : PascalString
  grantAdminCheck : Option Bool
  deriving DecidableEq, Repr

structure SetupOs where
  app : PascalString
  extractFileExt : PascalString → PascalString
  fileExists : PascalString → Bool
  copyFile : PascalString → PascalString → Bool
  saveStringToFile : PascalString → PascalString → Bool

/-- The message box that was shown, and the exception that ends the procedure. -/
structure Failure where
  shown : Option PascalString
  raised : PascalString
  deriving DecidableEq, Repr

structure SavedFile where
  configPath : PascalString
  jsonText : PascalString
  deriving DecidableEq, Repr

section Procedures
variable (os : SetupOs)

def isSupportedImageExt (path : PascalString) : Bool :=
  let ext := lowerCase (os.extractFileExt path)
  ext == text ".png" || ext == text ".jpg" || ext == text ".jpeg"

/-- An error is the message that is shown before the result is `False`. -/
def copyBrandingImage (srcPath destPath : PascalString) : Except PascalString Unit :=
  if safeTrim srcPath = [] then .ok ()
  else if !os.fileExists srcPath then
    .error (text "브랜딩 이미지 파일을 찾을 수 없습니다:" ++ crlf ++ srcPath)
  else if !isSupportedImageExt os srcPath then
    .error (text "지원되지 않는 이미지 확장자입니다. PNG/JPG/JPEG만 가능합니다." ++ crlf ++ srcPath)
  else if !os.copyFile srcPath destPath then
    .error (text "브랜딩 이미지 복사 실패:" ++ crlf ++ srcPath)
  else .ok ()

/-- The part of `WriteBrokerAppSettings` for one image: its path below the directory of the
broker, or no path where none was chosen. -/
def destRel (brokerDir src stem failure : PascalString) : Except Failure PascalString :=
  if src ≠ [] then
    let destRel := stem ++ os.extractFileExt src
    let destAbs := brokerDir ++ text "\\" ++ destRel
    match copyBrandingImage os src destAbs with
    | .ok () => .ok destRel
    | .error shown => .error ⟨some shown, failure⟩
  else .ok []

def jsonText (grantLocalAdminJson titleText subtitleText bgDestRel logoDestRel : PascalString) :
    PascalString :=
  text "\x7b" ++ crlf ++
  text "  \"UseDirectDot3\": true," ++ crlf ++
  text "  \"UseStdIn\": true," ++ crlf ++
  text "  \"GrantLocalAdminOnAuth\": " ++ grantLocalAdminJson ++ text "," ++ crlf ++
  text "  \"Dot3ServerName\": \"ipmentor6.crt\"," ++ crlf ++
  (text "  \"Dot3TrustedRootCAHash\": " ++
    text "\"65:4A:91:F3:CC:12:75:EF:A4:0E:89:C6:09:7A:1B:7C:FA:56:2D:2A\",") ++ crlf ++
  text "  \"Dot3SkipProfileIfSame\": true," ++ crlf ++
  text "  \"SecurityEnabled\": true," ++ crlf ++
  text "  \"SecurityStrict\": false," ++ crlf ++
  text "  \"SecurityRuntimeRecheckIntervalMs\": 5000," ++ crlf ++
  text "  \"EnableAntiDebugCheck\": true," ++ crlf ++
  text "  \"EnableExecutionEnvironmentCheck\": true," ++ crlf ++
  text "  \"EnableInstallPathCheck\": true," ++ crlf ++
  text "  \"EnableParentProcessCheck\": true," ++ crlf ++
  text "  \"EnableModuleScanCheck\": true," ++ crlf ++
  text "  \"EnableSelfHashCheck\": false," ++ crlf ++
  text "  \"RequireCodeSignature\": false," ++ crlf ++
  text "  \"ExpectedInstallDir\": \"C:\\\\Program Files\\\\Dot1xCP\\\\Broker\"," ++ crlf ++
  (text "  \"AllowedParentProcessNames\": " ++
    text "\"LogonUI.exe,CredentialUIBroker.exe,explorer.exe,devenv.exe,dotnet.exe\",") ++ crlf ++
  (text "  \"BlockedModuleKeywords\": \"frida,detours,easyhook,x64dbg,ollydbg,scylla," ++
    text "ida64,idaq,idaq64,cheatengine,processhacker\",") ++ crlf ++
  text "  \"AllowedModuleNames\": \"\"," ++ crlf ++
  text "  \"AllowedModulePathKeywords\": \"\\\\dot1xcp\\\\broker\\\\\"," ++ crlf ++
  text "  \"TitleText\": \"" ++ jsonEscape titleText ++ text "\"," ++ crlf ++
  text "  \"SubtitleText\": \"" ++ jsonEscape subtitleText ++ text "\"," ++ crlf ++
  text "  \"BackgroundImagePath\": \"" ++ jsonEscape bgDestRel ++ text "\"," ++ crlf ++
  text "  \"LogoImagePath\": \"" ++ jsonEscape logoDestRel ++ text "\"" ++ crlf ++
  text "\x7d" ++ crlf

def writeBrokerAppSettings (pages : WizardPages) : Except Failure SavedFile := do
  let brokerDir := os.app ++ text "\\Broker"
  let titleText := safeTrim pages.titleText
  let subtitleText := safeTrim pages.subtitleText
  let bgSrc := safeTrim pages.backgroundImage
  let logoSrc := safeTrim pages.logoImage
  let grantLocalAdminJson :=
    if pages.grantAdminCheck = some true then text "true" else text "false"
  let bgDestRel ←
    destRel os brokerDir bgSrc (text "branding\\lab_bg") (text "배경 이미지 처리 실패")
  let logoDestRel ← destRel os brokerDir logoSrc (text "branding\\logo") (text "로고 이미지 처리 실패")
  let configPath := brokerDir ++ text "\\appsettings.json"
  let jsonText := jsonText grantLocalAdminJson titleText subtitleText bgDestRel logoDestRel
  if !os.saveStringToFile configPath jsonText then
    throw ⟨none, text "appsettings.json 생성 실패: " ++ configPath⟩
  return ⟨configPath, jsonText⟩

end Procedures

inductive Setting where
  | flag (value : Bool)
  | numeral (n : Json.Number)
  | string (value : PascalString)

def Setting.tree : Setting → Json.Tree
  | .flag value => .word (.bool value)
  | .numeral n => .number n
  | .string value => .string (value.map escapeItem)

def Setting.value : Setting → Json.Value
  | .flag value => .bool value
  | .numeral n => .number n.units
  | .string value => .string value

theorem Setting.tree_value (setting : Setting) : setting.tree.value = setting.value := by
  cases setting with
  | flag value => rfl
  | numeral n => rfl
  | string units =>
    rw [tree, Json.Tree.value, List.map_map, escapeItems_value]
    rfl

def settings (grantLocalAdmin : Bool) (title subtitle background logo : PascalString) :
    (String × Setting) × List (String × Setting) :=
  (("UseDirectDot3", .flag true),
    [("UseStdIn", .flag true),
      ("GrantLocalAdminOnAuth", .flag grantLocalAdmin),
      ("Dot3ServerName", .string (text "ipmentor6.crt")),
      ("Dot3TrustedRootCAHash",
        .string (text "65:4A:91:F3:CC:12:75:EF:A4:0E:89:C6:09:7A:1B:7C:FA:56:2D:2A")),
      ("Dot3SkipProfileIfSame", .flag true),
      ("SecurityEnabled", .flag true),
      ("SecurityStrict", .flag false),
      ("SecurityRuntimeRecheckIntervalMs", .numeral ⟨text "5000", by decide⟩),
      ("EnableAntiDebugCheck", .flag true),
      ("EnableExecutionEnvironmentCheck", .flag true),
      ("EnableInstallPathCheck", .flag true),
      ("EnableParentProcessCheck", .flag true),
      ("EnableModuleScanCheck", .flag true),
      ("EnableSelfHashCheck", .flag false),
      ("RequireCodeSignature", .flag false),
      ("ExpectedInstallDir", .string (text "C:\\Program Files\\Dot1xCP\\Broker")),
      ("AllowedParentProcessNames",
        .string (text "LogonUI.exe,CredentialUIBroker.exe,explorer.exe,devenv.exe,dotnet.exe")),
      ("BlockedModuleKeywords",
        .string ((text "frida,detours,easyhook,x64dbg,ollydbg,scylla,ida64,idaq,idaq64," ++
          text "cheatengine,processhacker"))),
      ("AllowedModuleNames", .string []),
      ("AllowedModulePathKeywords", .string (text "\\dot1xcp\\broker\\")),
      ("TitleText", .string title),
      ("SubtitleText", .string subtitle),
      ("BackgroundImagePath", .string background),
      ("LogoImagePath", .string logo)])

def indent : List FlatJson.Ws := [.cr, .lf, .space, .space]

def members (first : String × Setting) : List (String × Setting) → Json.Members
  | [] => .last indent ((text first.1).map escapeItem) [] [.space] first.2.tree [.cr, .lf]
  | next :: rest =>
    .more indent ((text first.1).map escapeItem) [] [.space] first.2.tree [] (members next rest)

def document (settings : (String × Setting) × List (String × Setting)) : Json.Text where
  before := []
  tree := .object (members settings.1 settings.2)
  after := [.cr, .lf]

theorem members_values (first : String × Setting) (rest : List (String × Setting)) :
    (members first rest).values = (first :: rest).map fun member => (text member.1, member.2.value) := by
  induction rest generalizing first with
  | nil => simp [members, Json.Members.values, Setting.tree_value]
  | cons next rest ih => simp [members, Json.Members.values, Setting.tree_value, ih]

def line (member : String × Setting) : PascalString :=
  text "  " ++ Json.quoted ((text member.1).map escapeItem) ++ text ": " ++ member.2.tree.units

theorem members_units (first : String × Setting) (rest : List (String × Setting)) :
    (members first rest).units =
      crlf ++ line first ++ (rest.flatMap fun member => text "," ++ crlf ++ line member) ++ crlf := by
  induction rest generalizing first with
  | nil =>
    simp only [members, Json.Members.units, line, List.append_assoc, List.flatMap_nil,
      List.nil_append, Json.blank_nil]
    rfl
  | cons next rest ih =>
    simp only [members, Json.Members.units, line, List.append_assoc, List.flatMap_cons,
      Json.blank_nil, List.nil_append, ih]
    rfl

theorem fixed_lines :
    text "  \"UseDirectDot3\": true," = line ("UseDirectDot3", .flag true) ++ text "," ∧
    text "  \"UseStdIn\": true," = line ("UseStdIn", .flag true) ++ text "," ∧
    text "  \"Dot3ServerName\": \"ipmentor6.crt\"," =
      line ("Dot3ServerName", .string (text "ipmentor6.crt")) ++ text "," ∧
    (text "  \"Dot3TrustedRootCAHash\": " ++
        text "\"65:4A:91:F3:CC:12:75:EF:A4:0E:89:C6:09:7A:1B:7C:FA:56:2D:2A\",") =
      line ("Dot3TrustedRootCAHash",
        .string (text "65:4A:91:F3:CC:12:75:EF:A4:0E:89:C6:09:7A:1B:7C:FA:56:2D:2A")) ++ text "," ∧
    text "  \"Dot3SkipProfileIfSame\": true," = line ("Dot3SkipProfileIfSame", .flag true) ++ text "," ∧
    text "  \"SecurityEnabled\": true," = line ("SecurityEnabled", .flag true) ++ text "," ∧
    text "  \"SecurityStrict\": false," = line ("SecurityStrict", .flag false) ++ text "," ∧
    text "  \"SecurityRuntimeRecheckIntervalMs\": 5000," =
      line ("SecurityRuntimeRecheckIntervalMs", .numeral ⟨text "5000", by decide⟩) ++ text "," ∧
    text "  \"EnableAntiDebugCheck\": true," = line ("EnableAntiDebugCheck", .flag true) ++ text "," ∧
    text "  \"EnableExecutionEnvironmentCheck\": true," =
      line ("EnableExecutionEnvironmentCheck", .flag true) ++ text "," ∧
    text "  \"EnableInstallPathCheck\": true," = line ("EnableInstallPathCheck", .flag true) ++ text "," ∧
    text "  \"EnableParentProcessCheck\": true," =
      line ("EnableParentProcessCheck", .flag true) ++ text "," ∧
    text "  \"EnableModuleScanCheck\": true," = line ("EnableModuleScanCheck", .flag true) ++ text "," ∧
    text "  \"EnableSelfHashCheck\": false," = line ("EnableSelfHashCheck", .flag false) ++ text "," ∧
    text "  \"RequireCodeSignature\": false," = line ("RequireCodeSignature", .flag false) ++ text "," ∧
    text "  \"ExpectedInstallDir\": \"C:\\\\Program Files\\\\Dot1xCP\\\\Broker\"," =
      line ("ExpectedInstallDir", .string (text "C:\\Program Files\\Dot1xCP\\Broker")) ++ text "," ∧
    (text "  \"AllowedParentProcessNames\": " ++
        text "\"LogonUI.exe,CredentialUIBroker.exe,explorer.exe,devenv.exe,dotnet.exe\",") =
      line ("AllowedParentProcessNames",
        .string (text "LogonUI.exe,CredentialUIBroker.exe,explorer.exe,devenv.exe,dotnet.exe")) ++
        text "," ∧
    (text "  \"BlockedModuleKeywords\": \"frida,detours,easyhook,x64dbg,ollydbg,scylla," ++
        text "ida64,idaq,idaq64,cheatengine,processhacker\",") =
      line ("BlockedModuleKeywords",
        .string ((text "frida,detours,easyhook,x64dbg,ollydbg,scylla,ida64,idaq,idaq64," ++
          text "cheatengine,processhacker"))) ++ text "," ∧
    text "  \"AllowedModuleNames\": \"\"," = line ("AllowedModuleNames", .string []) ++ text "," ∧
    text "  \"AllowedModulePathKeywords\": \"\\\\dot1xcp\\\\broker\\\\\"," =
      line ("AllowedModulePathKeywords", .string (text "\\dot1xcp\\broker\\")) ++ text "," := by
  refine ⟨?_, ?_, ?_, ?_, ?_, ?_, ?_, ?_, ?_, ?_, ?_, ?_, ?_, ?_, ?_, ?_, ?_, ?_, ?_, ?_⟩
  all_goals
    dsimp only [line, Setting.tree]
    repeat rw [text_ofList]
    decide +kernel

theorem string_line (key : String) (opening value : PascalString)
    (opens : opening = text "  " ++ Json.quoted ((text key).map escapeItem) ++ text ": \"") :
    line (key, .string value) = opening ++ (jsonEscape value ++ text "\"") := by
  rw [jsonEscape_eq, opens]
  simp only [line, List.append_assoc]
  rfl

theorem flag_line (value : Bool) :
    line ("GrantLocalAdminOnAuth", .flag value) =
      text "  \"GrantLocalAdminOnAuth\": " ++ if value then text "true" else text "false" := by
  revert value
  decide +kernel

theorem document_units (grant : Bool) (title subtitle background logo : PascalString) :
    (document (settings grant title subtitle background logo)).units =
      jsonText (if grant then text "true" else text "false") title subtitle background logo := by
  have titleLine := string_line "TitleText" (text "  \"TitleText\": \"") title (by decide +kernel)
  have subtitleLine := string_line "SubtitleText" (text "  \"SubtitleText\": \"") subtitle
    (by decide +kernel)
  have backgroundLine := string_line "BackgroundImagePath" (text "  \"BackgroundImagePath\": \"")
    background (by decide +kernel)
  have logoLine := string_line "LogoImagePath" (text "  \"LogoImagePath\": \"") logo
    (by decide +kernel)
  have quoteComma : text "\"," = text "\"" ++ text "," := by decide +kernel
  have opens : text "\x7b" = [Json.leftBrace] := by decide +kernel
  have closes : text "\x7d" = [Json.rightBrace] := by decide +kernel
  have ends : Json.blank [.cr, .lf] = crlf := by decide +kernel
  rw [document, Json.Text.units, Json.Tree.units]
  dsimp only
  rw [members_units]
  unfold jsonText
  simp only [settings, List.flatMap_cons, List.flatMap_nil, fixed_lines, flag_line, titleLine,
    subtitleLine, backgroundLine, logoLine, quoteComma, opens, closes, ends]
  simp only [List.append_assoc, List.cons_append, List.nil_append, Json.blank_nil]

theorem quoted_ascii (value : PascalString) : Ascii (Json.quoted (value.map escapeItem)) := by
  have inside := jsonEscape_ascii value
  rw [jsonEscape_eq] at inside
  exact ascii_cons.mpr ⟨by decide, ascii_append.mpr ⟨inside, by decide⟩⟩

theorem isNumberUnit_ascii {c : UInt16} (unit : Json.isNumberUnit c = true) : c < 0x80 := by
  simp only [Json.isNumberUnit, Json.isDigit, Bool.or_eq_true, Bool.and_eq_true, decide_eq_true_eq,
    beq_iff_eq, UInt16.le_iff_toNat_le, UInt16.lt_iff_toNat_lt, ← UInt16.toNat_inj,
    UInt16.reduceToNat] at unit ⊢
  omega

theorem Setting.tree_ascii (setting : Setting) : Ascii setting.tree.units := by
  cases setting with
  | flag value => cases value <;> decide
  | numeral n => exact fun c inside => isNumberUnit_ascii (n.forall_numberUnit c inside)
  | string value => exact quoted_ascii value

theorem line_ascii (member : String × Setting) : Ascii (line member) := by
  simp only [line, ascii_append]
  exact ⟨⟨⟨by decide +kernel, quoted_ascii _⟩, by decide +kernel⟩, member.2.tree_ascii⟩

/-- Everything around the strings is ASCII, and so is what the escaper writes. -/
theorem document_ascii (settings : (String × Setting) × List (String × Setting)) :
    Ascii (document settings).units := by
  have separated (member : String × Setting) : Ascii (text "," ++ crlf ++ line member) :=
    ascii_append.mpr ⟨by decide +kernel, line_ascii member⟩
  have lines : Ascii (settings.2.flatMap fun member => text "," ++ crlf ++ line member) := by
    intro c inside
    obtain ⟨member, _, within⟩ := List.mem_flatMap.mp inside
    exact separated member c within
  rw [document, Json.Text.units, Json.Tree.units]
  dsimp only
  rw [members_units]
  simp only [ascii_append, ascii_cons]
  exact ⟨⟨by decide, by decide, ⟨⟨⟨by decide, line_ascii _⟩, lines⟩, by decide⟩, by decide⟩, by decide⟩

/-! ## What is saved -/

def configuration (grantLocalAdmin : Bool) (title subtitle background logo : PascalString) :
    List (PascalString × Json.Value) :=
  let settings := settings grantLocalAdmin title subtitle background logo
  (settings.1 :: settings.2).map fun member => (text member.1, member.2.value)

def imagePath (os : SetupOs) (stem : String) (chosen : PascalString) : PascalString :=
  if safeTrim chosen = [] then [] else text stem ++ os.extractFileExt (safeTrim chosen)

/-- No two members have the same key, so that a key has one value. -/
theorem configuration_keys (grant : Bool) (title subtitle background logo : PascalString) :
    ((configuration grant title subtitle background logo).map Prod.fst).Nodup := by
  unfold configuration settings
  simp only [List.map_cons, List.map_nil]
  repeat rw [text_ofList]
  decide +kernel

/-- A text of ASCII characters is one JSON object, and decodes to the given members, each
with a key of its own. -/
structure Configures (saved : PascalString) (members : List (PascalString × Json.Value)) : Prop where
  ascii : Ascii saved
  wellFormed : ∃ (text : Json.Text) (inside : Json.Members), text.tree = .object inside ∧
    text.units = saved
  decoded : Json.decode saved = some (.object members)
  distinct : (members.map Prod.fst).Nodup

theorem jsonText_configures (grant : Bool) (title subtitle background logo : PascalString) :
    Configures (jsonText (if grant then text "true" else text "false") title subtitle background logo)
      (configuration grant title subtitle background logo) where
  ascii := document_units grant title subtitle background logo ▸ document_ascii _
  wellFormed :=
    ⟨document (settings grant title subtitle background logo), _, rfl, document_units _ _ _ _ _⟩
  decoded := by
    rw [← document_units, Json.decode_units]
    exact congrArg (fun members => some (Json.Value.object members)) (members_values _ _)
  distinct := configuration_keys grant title subtitle background logo

theorem destRel_ok {os : SetupOs} {brokerDir chosen failure path : PascalString} {stem : String}
    (ran : destRel os brokerDir (safeTrim chosen) (text stem) failure = .ok path) :
    path = imagePath os stem chosen := by
  unfold destRel at ran
  unfold imagePath
  split at ran
  next filled =>
    rw [if_neg filled]
    dsimp only at ran
    split at ran
    · exact (Except.ok.inj ran).symm
    · cases ran
  next empty =>
    rw [if_pos (of_not_not empty)]
    exact (Except.ok.inj ran).symm

/-- When the procedure completes, the file says what was entered, and nothing else depends
on it. -/
theorem writeBrokerAppSettings_configures {os : SetupOs} {pages : WizardPages} {saved : SavedFile}
    (ran : writeBrokerAppSettings os pages = .ok saved) :
    Configures saved.jsonText
      (configuration (pages.grantAdminCheck == some true) (safeTrim pages.titleText)
        (safeTrim pages.subtitleText) (imagePath os "branding\\lab_bg" pages.backgroundImage)
        (imagePath os "branding\\logo" pages.logoImage)) := by
  unfold writeBrokerAppSettings at ran
  dsimp only at ran
  cases background : destRel os (os.app ++ text "\\Broker") (safeTrim pages.backgroundImage)
      (text "branding\\lab_bg") (text "배경 이미지 처리 실패") with
  | error failure =>
    rw [background] at ran
    cases ran
  | ok bgDestRel =>
    cases logo : destRel os (os.app ++ text "\\Broker") (safeTrim pages.logoImage)
        (text "branding\\logo") (text "로고 이미지 처리 실패") with
    | error failure =>
      rw [background, logo] at ran
      cases ran
    | ok logoDestRel =>
      rw [background, logo] at ran
      have written := jsonText_configures (pages.grantAdminCheck == some true)
        (safeTrim pages.titleText) (safeTrim pages.subtitleText) bgDestRel logoDestRel
      simp only [beq_iff_eq] at written
      rw [← destRel_ok background, ← destRel_ok logo]
      generalize (if pages.grantAdminCheck = some true then text "true" else text "false") =
        grantLocalAdminJson at ran written
      dsimp only [bind, Except.bind] at ran
      split at ran
      · cases ran
      · cases ran
        exact written

def obligingOs : SetupOs where
  app := [0x43, 0x3A]
  extractFileExt path :=
    let ext := path.reverse.takeWhile fun c => c ≠ 0x2E ∧ c ≠ 0x5C ∧ c ≠ 0x3A
    match path.reverse.drop ext.length with
    | 0x2E :: _ => 0x2E :: ext.reverse
    | _ => []
  fileExists _ := true
  copyFile _ _ := true
  saveStringToFile _ _ := true

/-- A title that would close its string and open a member, a subtitle that is half a
surrogate pair, and one image. -/
def wizardPages : WizardPages where
  titleText := text " \\\",\"A\":\""
  subtitleText := [0xD800, 0x20]
  backgroundImage := text "D:\\b.PNG"
  logoImage := []
  grantAdminCheck := some true

theorem writeBrokerAppSettings_configures_injection :
    ∃ saved, writeBrokerAppSettings obligingOs wizardPages = .ok saved ∧
      Configures saved.jsonText
        (configuration true (text "\\\",\"A\":\"") [0xD800] (text "branding\\lab_bg.PNG") []) :=
  ⟨_, rfl, by
    have completed := @writeBrokerAppSettings_configures obligingOs wizardPages _ rfl
    have title : safeTrim wizardPages.titleText = text "\\\",\"A\":\"" := by decide +kernel
    have subtitle : safeTrim wizardPages.subtitleText = [0xD800] := by decide +kernel
    have background : imagePath obligingOs "branding\\lab_bg" wizardPages.backgroundImage =
        text "branding\\lab_bg.PNG" := by decide +kernel
    have logo : imagePath obligingOs "branding\\logo" wizardPages.logoImage = [] := by
      decide +kernel
    rwa [title, subtitle, background, logo] at completed⟩

end Dot1xCP.Setup
