import InstallerBrowser.Proofs.Browser.Changes
import InstallerBrowser.Proofs.Session.Logging

/-!
# InstallerBrowser.Proofs.Browser.Steady

What an event does to the options, to the setting of the log, and to the program itself.

The changes that operations are made of leave these three alone (`Steady`), and so does reading what
the engine has sent.  What remains is a change of the options, and the two ways to quit; `Response`
lists these with their guards, and every event has one such response (`response`).
-/

namespace InstallerBrowser.Browser

variable {b c d : Browser}

/-! ## Browsers that stay as they are -/

/-- The live options, the setting of the log, and whether the program ends are the same. -/
structure Steady (b c : Browser) : Prop where
  live : c.options.live = b.options.live
  setting : c.log.setting = b.log.setting
  quitting : c.shouldQuit = b.shouldQuit

namespace Steady

theorem refl (b : Browser) : Steady b b := ⟨rfl, rfl, rfl⟩

theorem trans (h : Steady b c) (h' : Steady c d) : Steady b d :=
  ⟨h'.live.trans h.live, h'.setting.trans h.setting, h'.quitting.trans h.quitting⟩

end Steady

theorem Change.steady (h : Change b c) : Steady b c := by
  cases h with
  | logged level message => exact ⟨rfl, b.log.setting_log level message, rfl⟩
  | counted => exact ⟨rfl, b.log.setting_refreshCounter false, rfl⟩
  | shown | queued _ | toTop | moved _ => exact ⟨rfl, rfl, rfl⟩
  | noted _ _ hlive => exact ⟨hlive, rfl, rfl⟩
  | passed step _ => exact ⟨rfl, b.session.setting_step step, rfl⟩
  | opened op _ | marked op _ => exact ⟨rfl, b.session.setting_step (.changeTree op), rfl⟩

theorem Changes.steady (h : Changes b c) : Steady b c := by
  induction h with
  | refl => exact .refl b
  | tail _ hchange ih => exact ih.trans hchange.steady

theorem steady_poll (b : Browser) : Steady b b.poll := by
  have hread : Steady b { b with session := b.session.poll.1 } := ⟨rfl, b.session.setting_poll, rfl⟩
  exact hread.trans (changes_foldl changes_onEvent _ _).steady

/-! ## Events -/

/-- What comes of an event: nothing that counts here, the end of the program, or a change of the
options. -/
inductive Response (b : Browser) (event : Event) : Browser → Prop
  | steady {c : Browser} : Steady b c → Response b event c
  | quits : b.action? event = some .quit → b.isExtracting = false → Response b event b.forceQuit
  | confirmed : ConfirmsQuit b event → Response b event b.closeDialog.forceQuit
  | toggled (f) : Response b event (b.toggleOption f)
  | reset : Response b event b.resetOptions

/-- Every event has one of the listed responses. -/
theorem response (b : Browser) (event : Event) : Response b event (b.step event) := by
  have houtcome := outcome b event
  generalize b.step event = c at houtcome
  cases houtcome with
  | changes hchanges => exact .steady hchanges.steady
  | polls hchanges => exact .steady ((steady_poll b).trans hchanges.steady)
  | quits haction hidle => exact .quits haction hidle
  | confirmed hconfirms => exact .confirmed hconfirms
  | toggled f => exact .toggled f
  | reset => exact .reset

end InstallerBrowser.Browser
