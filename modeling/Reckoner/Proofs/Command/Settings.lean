import Reckoner.Command.Arguments
import Reckoner.Proofs.Sequencing

/-!
# Which settings there are

When settings come of an environment, which of its variables they depend on, and that no place count beyond the limit gets
through: neither from a variable nor from an option.
-/

namespace Reckoner

namespace Settings

variable {α : Type} {environment : String → Option String} {name raw : String}
  {read : String → String → Except SettingFault α} {default : α} {settings : Settings} {fault : SettingFault}

/-- A variable is unset or blank, or its value can be read. -/
def Accepts (environment : String → Option String) (name : String) (read : String → String → Except SettingFault α) :
    Prop :=
  ∀ raw, environment name = some raw → raw.toList.all Text.isBlank ∨ ∃ value, read name raw = .ok value

/-- A variable has a value that cannot be read, for the reason that is given. -/
def Rejects (environment : String → Option String) (name : String) (read : String → String → Except SettingFault α)
    (fault : SettingFault) : Prop :=
  ∃ raw, environment name = some raw ∧ ¬ raw.toList.all Text.isBlank ∧ read name raw = .error fault

/-- Both variables are unset, blank or can be read. -/
structure Acceptable (environment : String → Option String) : Prop where
  theme : Accepts environment themeVariable readTheme
  places : Accepts environment placesVariable readPlaces

/-- What a variable sets. -/
def chosen (environment : String → Option String) (name : String) (read : String → String → Except SettingFault α)
    (default : α) : Except SettingFault α :=
  match given? environment name with
  | none => .ok default
  | some raw => read name raw

theorem load_eq (environment : String → Option String) : load environment = do
    let theme ← chosen environment themeVariable readTheme defaults.theme
    let places ← chosen environment placesVariable readPlaces defaults.places
    return ⟨theme, places⟩ := by
  unfold load chosen
  cases given? environment themeVariable <;> cases given? environment placesVariable <;> rfl

theorem given?_eq_some_iff : given? environment name = some raw ↔
    environment name = some raw ∧ ¬ raw.toList.all Text.isBlank := by
  simp [given?, Option.filter_eq_some_iff]

theorem chosen_of_given (hraw : environment name = some raw) (hblank : ¬ raw.toList.all Text.isBlank) :
    chosen environment name read default = read name raw := by
  rw [chosen, given?_eq_some_iff.2 ⟨hraw, hblank⟩]

theorem exists_chosen_iff : (∃ value, chosen environment name read default = .ok value) ↔
    Accepts environment name read := by
  constructor
  · rintro ⟨value, hvalue⟩ raw hraw
    refine Classical.or_iff_not_imp_left.2 fun hblank => ?_
    rw [chosen_of_given hraw hblank] at hvalue
    exact ⟨value, hvalue⟩
  · intro haccepts
    unfold chosen
    cases hgiven : given? environment name with
    | none => exact ⟨default, rfl⟩
    | some raw =>
      obtain ⟨hraw, hblank⟩ := given?_eq_some_iff.1 hgiven
      exact (haccepts raw hraw).resolve_left hblank

theorem chosen_eq_error_iff : chosen environment name read default = .error fault ↔
    Rejects environment name read fault := by
  constructor
  · intro hfault
    unfold chosen at hfault
    cases hgiven : given? environment name with
    | none => exact absurd hfault (by simp [hgiven])
    | some raw =>
      rw [hgiven] at hfault
      obtain ⟨hraw, hblank⟩ := given?_eq_some_iff.1 hgiven
      exact ⟨raw, hraw, hblank, hfault⟩
  · rintro ⟨raw, hraw, hblank, hfault⟩
    rw [chosen_of_given hraw hblank, hfault]

theorem load_eq_ok_iff : load environment = .ok settings ↔
    chosen environment themeVariable readTheme defaults.theme = .ok settings.theme ∧
      chosen environment placesVariable readPlaces defaults.places = .ok settings.places := by
  rw [load_eq]
  constructor
  · intro hload
    obtain ⟨theme, htheme, hrest⟩ := bind_eq_ok_iff.1 hload
    obtain ⟨places, hplaces, hsettings⟩ := bind_eq_ok_iff.1 hrest
    obtain rfl := Except.ok.inj hsettings
    exact ⟨htheme, hplaces⟩
  · rintro ⟨htheme, hplaces⟩
    rw [htheme, ok_bind, hplaces]
    rfl

/-- Settings come of an environment exactly if both of its variables are unset, blank or can be read. -/
theorem exists_load_iff : (∃ settings, load environment = .ok settings) ↔ Acceptable environment := by
  constructor
  · rintro ⟨settings, hload⟩
    obtain ⟨htheme, hplaces⟩ := load_eq_ok_iff.1 hload
    exact ⟨exists_chosen_iff.1 ⟨_, htheme⟩, exists_chosen_iff.1 ⟨_, hplaces⟩⟩
  · rintro ⟨htheme, hplaces⟩
    obtain ⟨theme, htheme⟩ := exists_chosen_iff.2 htheme
    obtain ⟨places, hplaces⟩ := exists_chosen_iff.2 hplaces
    exact ⟨⟨theme, places⟩, load_eq_ok_iff.2 ⟨htheme, hplaces⟩⟩

theorem load_of_theme_rejected (htheme : Rejects environment themeVariable readTheme fault) :
    load environment = .error fault := by
  rw [load_eq, chosen_eq_error_iff.2 htheme, error_bind]

theorem load_of_places_rejected (htheme : Accepts environment themeVariable readTheme)
    (hplaces : Rejects environment placesVariable readPlaces fault) : load environment = .error fault := by
  obtain ⟨theme, htheme⟩ := exists_chosen_iff.2 htheme
  rw [load_eq, htheme, ok_bind, chosen_eq_error_iff.2 hplaces, error_bind]

/-- The places depend on one of the variables only. -/
theorem places_eq_of_load {other : String → Option String} {otherSettings : Settings}
    (hload : load environment = .ok settings) (hother : load other = .ok otherSettings)
    (hvariable : other placesVariable = environment placesVariable) : otherSettings.places = settings.places := by
  have hplaces := (load_eq_ok_iff.1 hload).2
  have hotherPlaces := (load_eq_ok_iff.1 hother).2
  rw [chosen, given?, hvariable, ← given?, ← chosen, hplaces] at hotherPlaces
  exact (Except.ok.inj hotherPlaces).symm

/-! ### Numbers of places -/

theorem bounds_of_le_placesLimit {places : Nat} (hplaces : places ≤ placesLimit) :
    0 ≤ (places : Int) ∧ (places : Int) ≤ 15 := by
  have hlimit : placesLimit = 15 := rfl
  omega

theorem placesInRange?_le {value : Int} {places : Nat} (hplaces : placesInRange? value = some places) :
    places ≤ placesLimit := by
  unfold placesInRange? at hplaces
  split at hplaces
  · obtain rfl := Option.some.inj hplaces
    omega
  · exact absurd hplaces (by simp)

theorem readPlaces_le {source : String} {places : Nat} (hplaces : readPlaces source raw = .ok places) :
    places ≤ placesLimit := by
  unfold readPlaces at hplaces
  split at hplaces
  · exact absurd hplaces (by simp)
  · split at hplaces
    · exact absurd hplaces (by simp)
    · rename_i hrange
      obtain rfl := Except.ok.inj hplaces
      exact placesInRange?_le hrange

theorem places_le_of_load (hload : load environment = .ok settings) : settings.places ≤ placesLimit := by
  have hplaces := (load_eq_ok_iff.1 hload).2
  unfold chosen at hplaces
  split at hplaces
  · rw [← Except.ok.inj hplaces]
    decide
  · exact readPlaces_le hplaces

end Settings

namespace Command

/-- The number of places that a command is given. -/
def places? : Command → Option Nat
  | evaluate _ places _ => places
  | keypad _ places => places

theorem le_of_arguments_places? {arguments : Arguments} {option : Option Nat} {places : Nat}
    (hoption : arguments.places? = some option) (hplaces : option = some places) : places ≤ placesLimit := by
  subst hplaces
  unfold Arguments.places? at hoption
  split at hoption
  · exact absurd hoption (by simp)
  · obtain ⟨read, hread, hsome⟩ := Option.map_eq_some_iff.1 hoption
    obtain rfl := Option.some.inj hsome
    obtain ⟨value, -, hrange⟩ := Option.bind_eq_some_iff.1 hread
    exact Settings.placesInRange?_le hrange

theorem places_le_of_named {rest : List String} {command : Command} {places : Nat} (hcommand : named rest = some command)
    (hplaces : command.places? = some places) : places ≤ placesLimit := by
  unfold named at hcommand
  split at hcommand
  · unfold readEvaluate at hcommand
    obtain ⟨arguments, -, hcommand⟩ := Option.bind_eq_some_iff.1 hcommand
    obtain ⟨option, hoption, hcommand⟩ := Option.bind_eq_some_iff.1 hcommand
    split at hcommand
    · obtain rfl := Option.some.inj hcommand
      exact le_of_arguments_places? hoption hplaces
    · exact absurd hcommand (by simp)
  · unfold readKeypad at hcommand
    obtain ⟨arguments, -, hcommand⟩ := Option.bind_eq_some_iff.1 hcommand
    obtain ⟨option, hoption, hcommand⟩ := Option.bind_eq_some_iff.1 hcommand
    split at hcommand
    · obtain rfl := Option.some.inj hcommand
      exact le_of_arguments_places? hoption hplaces
    · exact absurd hcommand (by simp)
  · exact absurd hcommand (by simp)

/-- No command is given more places than the limit. -/
theorem places_le_of_arguments {arguments : List String} {command : Command} {places : Nat}
    (hcommand : ofArguments arguments = some command) (hplaces : command.places? = some places) :
    places ≤ placesLimit := by
  unfold ofArguments at hcommand
  split at hcommand
  · exact places_le_of_named hcommand hplaces
  · exact places_le_of_named hcommand hplaces

/-- The number of places that is used is within the limit, whether it comes from an option or from the settings. -/
theorem getD_places_le {arguments : List String} {command : Command} {environment : String → Option String}
    {settings : Settings} (hcommand : ofArguments arguments = some command)
    (hload : Settings.load environment = .ok settings) : command.places?.getD settings.places ≤ placesLimit := by
  cases hplaces : command.places? with
  | none => exact Settings.places_le_of_load hload
  | some places => exact places_le_of_arguments hcommand hplaces

end Command

end Reckoner
