import Reckoner.Proofs.Command.Readers
import Reckoner.Proofs.Command.Settings
import Reckoner.Proofs.Text.Case

/-!
# What of an environment makes the settings

Two variables decide, and of their values what stands between the blanks around it. A variable with nothing but blanks is as
good as one that is unset. The separators U+001C to U+001F are blanks to a theme and to the question whether there is a value at
all, but no blanks to a number.
-/

namespace Reckoner

/-- A text with characters of some kind added at its ends. -/
def Text.Padded (added : Char → Prop) (raw padded : String) : Prop :=
  ∃ lead trail, padded.toList = lead ++ raw.toList ++ trail ∧ (∀ c ∈ lead, added c) ∧ ∀ c ∈ trail, added c

section Readers

variable {source raw padded : String} {theme : Theme} {places : Nat}

theorem Theme.ofName_eq_ok_iff {text : String} : ofName text = .ok theme ↔ theme.name = text := by
  constructor
  · intro hname
    unfold ofName Text.named at hname
    split at hname
    · rename_i hfound
      obtain rfl := Except.ok.inj hname
      simpa using List.find?_some hfound
    · exact absurd hname (by simp)
  · rintro rfl
    cases theme <;> rfl

theorem readTheme_eq_ok_iff_ofName :
    readTheme source raw = .ok theme ↔ Theme.ofName (String.ofList (Text.normalized raw.toList)) = .ok theme := by
  unfold readTheme
  cases Theme.ofName (String.ofList (Text.normalized raw.toList)) <;> simp

theorem readTheme_eq_ok_iff : readTheme source raw = .ok theme ↔ Text.StandsFor raw.toList theme.name.toList := by
  have hsome : theme.name.toList ≠ [] := by cases theme <;> decide
  have hletters : theme.name.toList.all Char.isLower := by cases theme <;> decide
  rw [readTheme_eq_ok_iff_ofName, Theme.ofName_eq_ok_iff, ← Text.normalized_eq_iff hsome (List.all_eq_true.1 hletters),
    ← String.toList_inj, String.toList_ofList, eq_comm]

theorem readTheme_padded (hpadded : Text.Padded (Text.isBlank ·) raw padded) (hread : readTheme source raw = .ok theme) :
    readTheme source padded = .ok theme := by
  obtain ⟨lead, trail, hlist, hlead, htrail⟩ := hpadded
  rw [readTheme_eq_ok_iff_ofName] at hread ⊢
  rwa [hlist, Text.normalized_append hlead htrail]

theorem readPlaces_padded
    (hpadded : Text.Padded (fun c => Text.isBlank c ∧ ¬ (0x1C ≤ c.toNat ∧ c.toNat ≤ 0x1F)) raw padded)
    (hread : readPlaces source raw = .ok places) : readPlaces source padded = .ok places := by
  obtain ⟨lead, trail, hlist, hlead, htrail⟩ := hpadded
  have hmargin {c : Char} (hc : Text.isBlank c ∧ ¬ (0x1C ≤ c.toNat ∧ c.toNat ≤ 0x1F)) : Text.isMargin c := by
    rw [Text.isMargin_eq hc.2]
    exact hc.1
  rw [readPlaces_eq_ok_iff, Text.integer?] at hread ⊢
  rwa [hlist, Text.trim_append_of_pos (fun c hc => hmargin (hlead c hc)) fun c hc => hmargin (htrail c hc)]

end Readers

namespace Settings

variable {α : Type} {environment other padded : String → Option String} {name : String} {added : Char → Prop}
  {read : String → String → Except SettingFault α} {default value : α} {settings : Settings}

/-- A variable is unset, or its value has nothing but blanks. -/
def LeftOut (environment : String → Option String) (name : String) : Prop :=
  ∀ raw, environment name = some raw → raw.toList.all Text.isBlank

/-- A variable has the same value in two environments, or is left out in both. -/
def Agree (environment other : String → Option String) (name : String) : Prop :=
  environment name = other name ∨ LeftOut environment name ∧ LeftOut other name

/-- What a variable sets is the default if it is left out, and otherwise what is read from its value. -/
def Sets (environment : String → Option String) (name : String) (read : String → String → Except SettingFault α)
    (default value : α) : Prop :=
  LeftOut environment name ∧ value = default ∨
    ∃ raw, environment name = some raw ∧ ¬ raw.toList.all Text.isBlank ∧ read name raw = .ok value

/-- A variable has the same value in two environments, except that characters may be added to one that is not left out. -/
def Pads (added : Char → Prop) (environment padded : String → Option String) (name : String) : Prop :=
  padded name = environment name ∨ ∃ raw wider, environment name = some raw ∧ ¬ raw.toList.all Text.isBlank ∧
    padded name = some wider ∧ Text.Padded added raw wider

theorem given?_eq_none_iff : given? environment name = none ↔ LeftOut environment name := by
  rw [Option.eq_none_iff_forall_ne_some]
  simp only [ne_eq, given?_eq_some_iff, not_and_not_right, LeftOut]

theorem given?_eq_of_agree (hagree : Agree environment other name) : given? environment name = given? other name := by
  rcases hagree with hsame | ⟨hleft, hright⟩
  · rw [given?, hsame, given?]
  · rw [given?_eq_none_iff.2 hleft, given?_eq_none_iff.2 hright]

theorem load_eq_of_agree (htheme : Agree environment other themeVariable) (hplaces : Agree environment other placesVariable) :
    load environment = load other := by
  rw [load, given?_eq_of_agree htheme, given?_eq_of_agree hplaces, load]

theorem chosen_eq_ok_iff : chosen environment name read default = .ok value ↔ Sets environment name read default value := by
  unfold chosen
  cases hgiven : given? environment name with
  | none =>
    have hleft := given?_eq_none_iff.1 hgiven
    constructor
    · intro hvalue
      exact .inl ⟨hleft, (Except.ok.inj hvalue).symm⟩
    · rintro (⟨-, rfl⟩ | ⟨raw, hraw, hblank, -⟩)
      · rfl
      · exact absurd (hleft raw hraw) hblank
  | some raw =>
    obtain ⟨hraw, hblank⟩ := given?_eq_some_iff.1 hgiven
    constructor
    · intro hvalue
      exact .inr ⟨raw, hraw, hblank, hvalue⟩
    · rintro (⟨hleft, -⟩ | ⟨other, hother, -, hvalue⟩)
      · exact absurd (hleft raw hraw) hblank
      · obtain rfl := Option.some.inj (hraw.symm.trans hother)
        exact hvalue

theorem all_isBlank_of_padded {raw wider : String} (hpadded : Text.Padded added raw wider)
    (hblank : wider.toList.all Text.isBlank) : raw.toList.all Text.isBlank := by
  obtain ⟨lead, trail, hlist, -, -⟩ := hpadded
  rw [hlist, List.all_append, List.all_append, Bool.and_eq_true, Bool.and_eq_true] at hblank
  exact hblank.1.2

theorem Pads.sets (hpads : Pads added environment padded name)
    (hread : ∀ raw wider, Text.Padded added raw wider → read name raw = .ok value → read name wider = .ok value)
    (hsets : Sets environment name read default value) : Sets padded name read default value := by
  rcases hpads with hsame | ⟨raw, wider, hraw, hblank, hwider, hpadded⟩
  · rwa [Sets, LeftOut, hsame]
  · rcases hsets with ⟨hleft, -⟩ | ⟨given, hgiven, -, hvalue⟩
    · exact absurd (hleft raw hraw) hblank
    · obtain rfl := Option.some.inj (hraw.symm.trans hgiven)
      refine .inr ⟨wider, hwider, fun hall => hblank (all_isBlank_of_padded hpadded hall), ?_⟩
      exact hread raw wider hpadded hvalue

theorem load_eq_ok_iff_sets : load environment = .ok settings ↔
    Sets environment themeVariable readTheme defaults.theme settings.theme ∧
      Sets environment placesVariable readPlaces defaults.places settings.places := by
  rw [load_eq_ok_iff, chosen_eq_ok_iff, chosen_eq_ok_iff]

/-- The settings depend on two variables, and it makes no difference whether one of them is unset or blank. There are settings
if each of them is left out or can be read, and of two that cannot be read the theme is reported. A theme is read from its name
in any case with blanks around it, and no value that can be read is changed by more blanks around it. -/
theorem load_from_variables :
    (∀ environment other, Agree environment other themeVariable → Agree environment other placesVariable →
      load environment = load other) ∧
    (∀ environment, (∃ settings, load environment = .ok settings) ↔ Acceptable environment) ∧
    (∀ environment settings, load environment = .ok settings → settings.places ≤ 15 ∧
      Sets environment themeVariable readTheme defaults.theme settings.theme ∧
      Sets environment placesVariable readPlaces defaults.places settings.places) ∧
    (∀ environment fault, Rejects environment themeVariable readTheme fault → load environment = .error fault) ∧
    (∀ environment fault, Accepts environment themeVariable readTheme → Rejects environment placesVariable readPlaces fault →
      load environment = .error fault) ∧
    (∀ source raw theme, readTheme source raw = .ok theme ↔ Text.StandsFor raw.toList theme.name.toList) ∧
    ∀ environment padded settings, Pads (Text.isBlank ·) environment padded themeVariable →
      Pads (fun c => Text.isBlank c ∧ ¬ (0x1C ≤ c.toNat ∧ c.toNat ≤ 0x1F)) environment padded placesVariable →
        load environment = .ok settings → load padded = .ok settings := by
  refine ⟨fun _ _ => load_eq_of_agree, fun _ => exists_load_iff, ?_, fun _ _ => load_of_theme_rejected,
    fun _ _ => load_of_places_rejected, fun _ _ _ => readTheme_eq_ok_iff, ?_⟩
  · intro environment settings hload
    exact ⟨places_le_of_load hload, load_eq_ok_iff_sets.1 hload⟩
  · intro environment padded settings htheme hplaces hload
    obtain ⟨hchosen, hcount⟩ := load_eq_ok_iff_sets.1 hload
    refine load_eq_ok_iff_sets.2 ⟨htheme.sets (fun raw wider => readTheme_padded) hchosen, ?_⟩
    exact hplaces.sets (fun raw wider => readPlaces_padded) hcount

/-- The theme is written with a kelvin sign, and a separator behind it is one of its blanks. -/
theorem load_from_variables_kelvin :
    let environment := fun name =>
      if name = themeVariable then some "dAR\u212A" else if name = placesVariable then some "1_2" else none
    let padded := fun name =>
      if name = themeVariable then some "\u2003dAR\u212A\x1C" else if name = placesVariable then some "1_2\u00A0" else some name
    load environment = .ok ⟨.dark, 12⟩ ∧ load padded = .ok ⟨.dark, 12⟩ := by
  intro environment padded
  have hload : load environment = .ok ⟨.dark, 12⟩ := by decide
  have htheme : Pads (Text.isBlank ·) environment padded themeVariable :=
    .inr ⟨_, _, rfl, by decide, rfl, ['\u2003'], ['\x1C'], by decide, List.forall_mem_singleton.2 (by decide),
      List.forall_mem_singleton.2 (by decide)⟩
  have hplaces : Pads (fun c => Text.isBlank c ∧ ¬ (0x1C ≤ c.toNat ∧ c.toNat ≤ 0x1F)) environment padded placesVariable :=
    .inr ⟨_, _, rfl, by decide, rfl, [], ['\u00A0'], by decide, List.forall_mem_nil _, List.forall_mem_singleton.2 (by decide)⟩
  obtain ⟨-, -, -, -, -, -, hpadded⟩ := load_from_variables
  exact ⟨hload, hpadded environment padded _ htheme hplaces hload⟩

end Settings

end Reckoner
