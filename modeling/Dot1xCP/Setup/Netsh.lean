import Dot1xCP.Setup.RuntimeJson
import Dot1xCP.Lib.CommandLine

/-! What `netsh.exe` makes of the parameters that `RemoveLanProfilesOnUninstall` gives it.

The start-up code of `netsh.exe` reads them by the rules of the C run-time library.
-/

set_option autoImplicit false

namespace Dot1xCP.Setup
open CommandLine
open Json (quote)

def interfaceTag : PascalString := text "interface="

theorem lead_eq : text "lan delete profile interface=\"" =
    text "lan" ++ 0x20 :: (text "delete" ++ 0x20 :: (text "profile" ++ 0x20 :: (interfaceTag ++ [quote]))) := by
  decide +kernel

theorem word_read {word : PascalString} (filled : word ≠ [])
    (plain : (word.all fun c => c != quote && !windows.blank c) = true) (s : PascalString) :
    arguments windows false 0 none (word ++ 0x20 :: s) = word :: arguments windows false 0 none s := by
  have each := List.all_eq_true.mp plain
  refine (arguments_plain filled (fun inside => ?_) fun c inside => ?_).2 0x20 s rfl
  · exact absurd (Bool.and_eq_true_iff.mp (each _ inside)).1 (by simp [windows, quote])
  · exact Bool.not_eq_true' _ |>.mp (Bool.and_eq_true_iff.mp (each c inside)).2

/-- `netsh.exe` is given the name of the interface as one parameter exactly if the name does
not end with a backslash, which would take the closing quotation mark with it. -/
theorem netsh_interface {sys cmd jsonText : PascalString} {registry : Registry} {command : Command}
    (first : (removeLanProfilesOnUninstall sys cmd (some jsonText) registry).head? = some command) :
    ∃ registered,
      tryResolveInterfaceNameFromGuid
        (normalizeGuidBraced (jsonExtractStringValue jsonText (text "WiredInterfaceGuid")))
        registry = some registered ∧
      (arguments windows false 0 none command.params =
          [text "lan", text "delete", text "profile", interfaceTag ++ removeAll quote registered] ↔
        (removeAll quote registered).getLast? ≠ some 0x5C) := by
  unfold removeLanProfilesOnUninstall at first
  dsimp only at first
  split at first
  · cases first
  · split at first
    · cases first
    next registered found =>
      cases first
      refine ⟨registered, found, ?_⟩
      have free : windows.quote ∉ removeAll quote registered := removeAll_free quote registered
      have line : text "lan delete profile interface=\"" ++ removeAll quote registered ++ text "\"" =
          text "lan" ++ 0x20 :: (text "delete" ++ 0x20 :: (text "profile" ++ 0x20 ::
            (interfaceTag ++ windows.quote :: (removeAll quote registered ++ [windows.quote])))) := by
        rw [lead_eq]
        simp only [List.append_assoc, List.cons_append, List.nil_append]
        rfl
      rw [line, word_read (by decide) (by decide), word_read (by decide) (by decide),
        word_read (by decide) (by decide), List.cons_inj_right, List.cons_inj_right, List.cons_inj_right]
      have tidy : interfaceTag.getLast? ≠ some windows.backslash := by decide
      exact arguments_quoted (by decide) (by decide) (solid_of_all (by decide)) tidy free

/-- `Ethernet 2`, whose name in the registry has a quotation mark and a blank too many. -/
theorem netsh_interface_ethernet :
    ∃ command,
      (removeLanProfilesOnUninstall [] [] (some (text "\"WiredInterfaceGuid\":\"1\""))
        fun _ => some (.string (text " Ethernet\" 2"))).head? = some command ∧
      arguments windows false 0 none command.params =
        [text "lan", text "delete", text "profile", text "interface=Ethernet 2"] := by
  have first : (removeLanProfilesOnUninstall [] [] (some (text "\"WiredInterfaceGuid\":\"1\""))
      fun _ => some (.string (text " Ethernet\" 2"))).head? =
        some ⟨text "\\netsh.exe", text "lan delete profile interface=\"Ethernet 2\""⟩ := by
    decide +kernel
  obtain ⟨registered, found, read⟩ := netsh_interface first
  have name : registered = text "Ethernet\" 2" := by
    refine Option.some_inj.mp (found.symm.trans ?_)
    decide +kernel
  subst name
  exact ⟨_, first, read.mpr (by decide +kernel)⟩

end Dot1xCP.Setup
