import Reckon.Proofs.Paths
import Reckon.Settings
import Reckon.Settings.File

/-!
Layers of settings. What a command line, a file and the standard settings say of one setting is looked up by its name
(`Setting`), so that one statement holds of all of them. Flags are given one after the other, and the last one counts
(`Flags.Spelled`, `Flags.parseAfter_given`). A decoder sets the settings whose keys a file has (`Decoder.Lawful`), as
the reader of documents does (`Draft.lawful_decoder`). A command has settings if the file can be used and the color and
the depth that are chosen in the end are allowed, and then every setting is that of the flag, or else that of the file,
or else the standard one (`Settings.resolve_layers`).
-/

namespace Reckon

/-- What settings have for a setting. -/
def Settings.get (settings : Settings) : (s : Setting) → s.Value
  | .store => settings.store
  | .history => settings.history
  | .color => settings.color.text
  | .prompt => settings.prompt
  | .depth => settings.depth

namespace Setting

/-- The flag for a setting. -/
def flag : Setting → Flag
  | store => .store
  | history => .history
  | color => .color
  | prompt => .prompt
  | depth => .depth

/-- What the value of a flag sets a setting to, if it is one. -/
def ofText? : (s : Setting) → String → Option s.Value
  | depth, text => (Text.readInteger text).toOption
  | store, text | history, text | color, text | prompt, text => some text

theorem setting?_eq_some_iff {flag : Flag} {s : Setting} : flag.setting? = some s ↔ s.flag = flag := by
  cases flag <;> cases s <;> decide

theorem toOption_ofText (s : Setting) (text : String) : (s.ofText text).toOption = s.ofText? text := by
  cases s <;> rfl

end Setting

/-! ### Looking up and setting -/

@[simp]
theorem Choices.get_empty (s : Setting) : Choices.empty.get s = none := by
  cases s <;> rfl

@[simp]
theorem Choices.get_set (choices : Choices) (s : Setting) (value : s.Value) :
    (choices.set s value).get s = some value := by
  cases s <;> rfl

theorem Choices.get_set_of_ne (choices : Choices) {s t : Setting} (other : t ≠ s) (value : s.Value) :
    (choices.set s value).get t = choices.get t := by
  cases s <;> cases t <;> first | rfl | exact absurd rfl other

@[simp]
theorem Draft.get_set (draft : Draft) (s : Setting) (value : s.Value) : (draft.set s value).get s = value := by
  cases s <;> rfl

theorem Draft.get_set_of_ne (draft : Draft) {s t : Setting} (other : t ≠ s) (value : s.Value) :
    (draft.set s value).get t = draft.get t := by
  cases s <;> cases t <;> first | rfl | exact absurd rfl other

/-! ### One setting after the other -/

theorem Draft.get_override (choices : Choices) (draft : Draft) (s t : Setting) :
    (draft.override choices s).get t = if t = s then (choices.get t).getD (draft.get t) else draft.get t := by
  rw [override]
  by_cases same : t = s
  · subst same
    cases choices.get t <;> simp
  · rw [if_neg same]
    cases choices.get s with
    | none => rfl
    | some value => exact draft.get_set_of_ne same value

/-- The settings that have been visited are those that are chosen, in any order. -/
theorem Draft.get_foldl_override (choices : Choices) (order : List Setting) (draft : Draft) (t : Setting) :
    (order.foldl (Draft.override choices) draft).get t =
      if t ∈ order then (choices.get t).getD (draft.get t) else draft.get t := by
  induction order generalizing draft with
  | nil => rfl
  | cons s order ih =>
    rw [List.foldl_cons, ih, get_override]
    by_cases same : t = s
    · cases choices.get t <;> simp [same]
    · simp [same]

/-- What is chosen goes over a draft, in whatever order it is visited. -/
theorem Draft.get_overlay (visit : Visit Setting.all) (draft : Draft) (choices : Choices) (s : Setting) :
    (draft.overlay visit choices).get s = (choices.get s).getD (draft.get s) := by
  have visited : s ∈ visit.order := by
    rw [visit.perm.mem_iff]
    cases s <;> decide
  rw [overlay, get_foldl_override, if_pos visited]

/-! ### Entries for settings -/

/-- What entries of a kind say of settings: which settings they are for, and what they set them to. -/
structure Source (α : Type) where
  names : Setting → α → Bool
  value : (s : Setting) → α → Option s.Value

namespace Source

variable {α : Type} {source : Source α} {entries : List α} {e : α} {before next after : Choices}

/-- What the last entry for a setting sets it to, if there is one. -/
def last? (source : Source α) (entries : List α) (s : Setting) : Option s.Value :=
  (entries.reverse.find? (source.names s)).bind (source.value s)

/-- An entry sets what it is for, and nothing else. -/
def Step (source : Source α) (before : Choices) (e : α) (after : Choices) : Prop :=
  ∀ s, if source.names s e = true then (source.value s e).isSome ∧ after.get s = source.value s e
    else after.get s = before.get s

/-- Entries set what they are for, the last one counting. -/
structure Applied (source : Source α) (before : Choices) (entries : List α) (after : Choices) : Prop where
  valid : ∀ e ∈ entries, ∀ s, source.names s e = true → (source.value s e).isSome
  get : ∀ s, after.get s = (source.last? entries s).or (before.get s)

theorem Applied.nil (before : Choices) : source.Applied before [] before :=
  ⟨(fun _ member => nomatch member), fun _ => rfl⟩

theorem Applied.cons (step : source.Step before e next) (others : source.Applied next entries after) :
    source.Applied before (e :: entries) after := by
  constructor
  case valid =>
    intro d member s named
    rcases List.mem_cons.mp member with rfl | member
    · have here := step s
      rw [if_pos named] at here
      exact here.1
    · exact others.valid d member s named
  case get =>
    intro s
    have here := step s
    rw [others.get, last?, last?, List.reverse_cons, List.find?_append]
    -- This entry counts only if no later one is for the same setting.
    cases later : entries.reverse.find? (source.names s) with
    | some d =>
      have member : d ∈ entries := List.mem_reverse.mp (List.mem_of_find?_eq_some later)
      obtain ⟨x, value⟩ := Option.isSome_iff_exists.mp (others.valid d member s (List.find?_some later))
      simp [value]
    | none =>
      by_cases named : source.names s e = true
      · rw [if_pos named] at here
        obtain ⟨x, value⟩ := Option.isSome_iff_exists.mp here.1
        simp [named, here.2, value]
      · rw [if_neg named] at here
        simp [named, here]

end Source

/-! ### Flags -/

namespace Flags

/-- Flags with their values as entries for settings. -/
def source : Source (Flag × String) := ⟨fun s entry => s.flag = entry.1, fun s entry => s.ofText? entry.2⟩

/-- Arguments that begin with flags, the flags with their values in the order in which they are given, and the arguments
    that are left. -/
inductive Spelled : List String → List (Flag × String) → List String → Prop
  | done : Spelled [] [] []
  | plain {arg : String} {args : List String} (word : shape arg = .plain) : Spelled (arg :: args) [] (arg :: args)
  | ending {arg : String} {args : List String} (dashes : shape arg = .ending) : Spelled (arg :: args) [] args
  | joined {arg : String} {args rest : List String} {word : List Char} {name value : String} {flag : Flag}
      {given : List (Flag × String)} (dashed : shape arg = .dashed word) (named : isNameless word = false)
      (parts : splitWord word = (name, some value)) (known : Flag.ofName? name = some flag)
      (others : Spelled args given rest) : Spelled (arg :: args) ((flag, value) :: given) rest
  | apart {arg value : String} {args rest : List String} {word : List Char} {name : String} {flag : Flag}
      {given : List (Flag × String)} (dashed : shape arg = .dashed word) (named : isNameless word = false)
      (parts : splitWord word = (name, none)) (known : Flag.ofName? name = some flag)
      (others : Spelled args given rest) : Spelled (arg :: value :: args) ((flag, value) :: given) rest

/-- The file that is named last. -/
def lastFile? (given : List (Flag × String)) : Option String := given.reverse.lookup .config

theorem lastFile?_cons (given : List (Flag × String)) (flag : Flag) (value : String) :
    lastFile? ((flag, value) :: given) = (lastFile? given).or (if flag = .config then some value else none) := by
  rw [lastFile?, List.reverse_cons, List.lookup_append]
  cases flag <;> rfl

theorem setting?_eq_none_iff {flag : Flag} : flag.setting? = none ↔ flag = .config := by
  cases flag <;> decide

/-- A flag with a value names the file or sets a setting. -/
theorem step_of_set {before after : Flags} {flag : Flag} {value : String} (set : before.set flag value = .ok after) :
    after.config = (if flag = .config then some value else before.config) ∧
      source.Step before.choices (flag, value) after.choices := by
  simp only [← setting?_eq_none_iff, Source.Step, source, decide_eq_true_eq, ← Setting.setting?_eq_some_iff]
  rw [Flags.set] at set
  split at set
  · rename_i unset
    cases set
    exact ⟨(if_pos unset).symm, fun s => by simp [unset]⟩
  · rename_i t here
    split at set
    · cases set
    · rename_i chosen read
      cases set
      refine ⟨by simp [here], fun s => ?_⟩
      have value : t.ofText? value = some chosen := by rw [← t.toOption_ofText, read, Except.toOption]
      by_cases same : t = s
      · subst same
        simp [here, value]
      · simp only [here, Option.some.injEq, same, if_false]
        exact Choices.get_set_of_ne _ (Ne.symm same) chosen

theorem ofName?_of_flag {name : String} {f : Flag} (known : flag name = .ok f) : Flag.ofName? name = some f := by
  rw [flag] at known
  split at known
  · rename_i found
    cases known
    exact found
  · split at known <;> cases known

/-- What flags give once others have been given after them. -/
structure Given (before : Flags) (given : List (Flag × String)) (after : Flags) : Prop where
  config : after.config = (lastFile? given).or before.config
  choices : source.Applied before.choices given after.choices

theorem Given.cons {before next after : Flags} {flag : Flag} {value : String} {given : List (Flag × String)}
    (set : before.set flag value = .ok next) (others : Given next given after) :
    Given before ((flag, value) :: given) after := by
  obtain ⟨config, step⟩ := step_of_set set
  refine ⟨?_, .cons step others.choices⟩
  rw [lastFile?_cons, others.config, config]
  by_cases same : flag = .config
  · simp [same]
  · simp [same]

/-- The flags that arguments give, and what they give. -/
theorem parseAfter_given {before after : Flags} {args : List String} (parsed : parseAfter before args = .ok after) :
    ∃ given, Spelled args given after.rest ∧ Given before given after := by
  fun_induction parseAfter before args with
  | case1 =>
    cases parsed
    exact ⟨[], .done, rfl, .nil _⟩
  | case2 _ _ _ word =>
    cases parsed
    exact ⟨[], .plain word, rfl, .nil _⟩
  | case3 _ _ _ dashes =>
    cases parsed
    exact ⟨[], .ending dashes, rfl, .nil _⟩
  | case7 before arg word dashed named name flag known value args next set parts ih =>
    obtain ⟨given, others, gives⟩ := ih parsed
    exact ⟨_, .joined dashed (by simpa using named) parts (ofName?_of_flag known) others, gives.cons set⟩
  | case9 before arg word dashed named name flag known value args next set parts ih =>
    obtain ⟨given, others, gives⟩ := ih parsed
    exact ⟨_, .apart dashed (by simpa using named) parts (ofName?_of_flag known) others, gives.cons set⟩
  | case4 | case5 | case6 | case8 | case10 => cases parsed

end Flags

/-! ### Files -/

/-- What is at the path of a file of settings. A document has values under keys, of which some are unknown. -/
inductive Content
  | absent
  | faulty
  | document (slots : String → Option Toml.Slot) (unknown : List Toml.Key)

namespace Content

/-- What stands under the keys of settings is of their kinds. -/
def Fits (slots : String → Option Toml.Slot) : Prop :=
  ∀ (s : Setting) (slot : Toml.Slot), slots s.key = some slot → (s.ofSlot? slot).isSome

/-- What stands under the key of a setting, if the key is present. -/
def get (slots : String → Option Toml.Slot) (s : Setting) : Option s.Value := (slots s.key).bind s.ofSlot?

end Content

/-- A decoder finds at every path what is there. -/
structure Decoder.Lawful (decode : Decoder) (content : String → Content) : Prop where
  /-- A file that is not there changes nothing. -/
  absent {path : String} (missing : content path = .absent) (draft : Draft) :
    ∃ error, decode path draft = (.error error, draft) ∧ error.isNotFound = true
  /-- A file that cannot be read, or has no document, is another error. -/
  faulty {path : String} (bad : content path = .faulty) (draft : Draft) :
    ∃ error after, decode path draft = (.error error, after) ∧ error.isNotFound = false
  /-- So is a value that is not of the kind of its setting. -/
  unfit {path : String} {slots : String → Option Toml.Slot} {unknown : List Toml.Key}
    (document : content path = .document slots unknown) (unfit : ¬ Content.Fits slots) (draft : Draft) :
    ∃ error after, decode path draft = (.error error, after) ∧ error.isNotFound = false
  /-- Exactly the settings whose keys are present are set, and the unknown keys are told. -/
  sets {path : String} {slots : String → Option Toml.Slot} {unknown : List Toml.Key}
    (document : content path = .document slots unknown) (fits : Content.Fits slots) (draft : Draft) :
    ∃ after, decode path draft = (.ok unknown, after) ∧
      ∀ s, after.get s = (Content.get slots s).getD (draft.get s)

/-! ### Documents -/

namespace Choices

/-- What stands under the keys of a file as entries for settings. -/
def source : Source (Toml.Key × Toml.Slot) where
  names s entry := Setting.ofKey? entry.1 = some s
  value s entry := s.ofSlot? entry.2

theorem step_of_add {before next : Choices} {entry : Toml.Key × Toml.Slot} (added : before.add entry = .ok next) :
    source.Step before entry next := by
  intro t
  rw [add] at added
  split at added
  · rename_i unknown
    cases added
    rw [if_neg (by simp [source, unknown])]
  · rename_i s here
    split at added
    · cases added
    · rename_i chosen value
      cases added
      by_cases same : s = t
      · subst same
        rw [if_pos (by simp [source, here])]
        simp [source, value]
      · rw [if_neg (by simp [source, here, same])]
        exact get_set_of_ne _ (Ne.symm same) chosen

/-- What is added is what stands under the keys. -/
theorem applied_of_addAll {before after : Choices} {slots : List (Toml.Key × Toml.Slot)}
    (added : before.addAll slots = .ok after) : source.Applied before slots after := by
  fun_induction addAll before slots with
  | case1 before =>
    cases added
    exact .nil _
  | case2 => cases added
  | case3 before entry entries next set ih => exact .cons (step_of_add set) (ih added)

/-- Only values of wrong kinds are not added. -/
theorem isNotFound_of_addAll {before : Choices} {slots : List (Toml.Key × Toml.Slot)} {error : DecodeError}
    (failed : before.addAll slots = .error error) : error.isNotFound = false := by
  fun_induction addAll before slots with
  | case1 => cases failed
  | case2 before entry entries other refused =>
    cases failed
    rw [add] at refused
    split at refused
    · cases refused
    · split at refused <;> cases refused
      rfl
  | case3 before entry entries next set ih => exact ih failed

end Choices

namespace Toml.Document

/-- What stands under the key of a setting in a document, the last one counting. -/
def under (doc : Document) (name : String) : Option Slot :=
  (doc.slots.reverse.find? fun entry => (Setting.ofKey? entry.1).map Setting.key = some name).map Prod.snd

/-- No key is that of two settings. -/
theorem key_eq_iff (entry : Key × Slot) (s : Setting) :
    (Setting.ofKey? entry.1).map Setting.key = some s.key ↔ Setting.ofKey? entry.1 = some s := by
  have keyed (t : Setting) : t.key = s.key ↔ t = s := by
    cases s <;> cases t <;> decide
  cases Setting.ofKey? entry.1 with
  | none => simp
  | some t => simp [keyed]

theorem get_under (doc : Document) (s : Setting) : Content.get doc.under s = Choices.source.last? doc.slots s := by
  simp only [Content.get, under, key_eq_iff, Option.bind_map]
  rfl

end Toml.Document

namespace Draft

/-- What the file at a path has, given the contents of files. -/
def content (contents : String → Except FileFailure String) (path : String) : Content :=
  match contents path with
  | .error failure => if failure = .notFound then .absent else .faulty
  | .ok text =>
    match Toml.Document.read? text with
    | none => .faulty
    | some doc =>
      match Choices.empty.addAll doc.slots with
      | .error _ => .faulty
      | .ok _ => .document doc.under doc.unknown

/-- The values of a document that has been added are of their kinds. -/
theorem fits_under {doc : Toml.Document} {choices : Choices} (added : Choices.empty.addAll doc.slots = .ok choices) :
    Content.Fits doc.under := by
  intro s slot found
  obtain ⟨entry, last, rfl⟩ := Option.map_eq_some_iff.mp found
  have member : entry ∈ doc.slots := List.mem_reverse.mp (List.mem_of_find?_eq_some last)
  have keyed : (Setting.ofKey? entry.1).map Setting.key = some s.key := by simpa using List.find?_some last
  have named := (Toml.Document.key_eq_iff entry s).mp keyed
  exact (Choices.applied_of_addAll added).valid entry member s (decide_eq_true named)

/-- What is in a document goes over a draft. -/
theorem get_overlay_under {doc : Toml.Document} {choices : Choices}
    (added : Choices.empty.addAll doc.slots = .ok choices) (draft : Draft) (s : Setting) :
    (draft.overlay .listed choices).get s = (Content.get doc.under s).getD (draft.get s) := by
  rw [get_overlay, (Choices.applied_of_addAll added).get, Choices.get_empty, Option.or_none, doc.get_under]

/-- The reader of documents finds no file, or fails otherwise, or reads a document. -/
theorem decoder_cases (contents : String → Except FileFailure String) (path : String) (draft : Draft) :
    (content contents path = .absent ∧
        ∃ error, decoder contents path draft = (.error error, draft) ∧ error.isNotFound = true) ∨
      (content contents path = .faulty ∧
        ∃ error, decoder contents path draft = (.error error, draft) ∧ error.isNotFound = false) ∨
      ∃ (doc : Toml.Document) (choices : Choices), Choices.empty.addAll doc.slots = .ok choices ∧
        content contents path = .document doc.under doc.unknown ∧
        decoder contents path draft = (.ok doc.unknown, draft.overlay .listed choices) := by
  rw [content, decoder]
  cases contents path with
  | error failure =>
    by_cases missing : failure = .notFound
    · exact .inl ⟨if_pos missing, _, rfl, decide_eq_true missing⟩
    · exact .inr (.inl ⟨if_neg missing, _, rfl, decide_eq_false missing⟩)
  | ok text =>
    simp only [decode]
    cases Toml.Document.read? text with
    | none => exact .inr (.inl ⟨rfl, _, rfl, rfl⟩)
    | some doc =>
      dsimp only
      cases added : Choices.empty.addAll doc.slots with
      | error error => exact .inr (.inl ⟨rfl, error, rfl, Choices.isNotFound_of_addAll added⟩)
      | ok choices => exact .inr (.inr ⟨doc, choices, added, rfl, rfl⟩)

/-- The reader of documents is a decoder. -/
theorem lawful_decoder (contents : String → Except FileFailure String) :
    (decoder contents).Lawful (content contents) := by
  constructor
  case absent =>
    intro path missing draft
    rcases decoder_cases contents path draft with ⟨-, found⟩ | ⟨other, -⟩ | ⟨doc, choices, -, other, -⟩
    · exact found
    · cases missing.symm.trans other
    · cases missing.symm.trans other
  case faulty =>
    intro path bad draft
    rcases decoder_cases contents path draft with ⟨other, -⟩ | ⟨-, error, found, kind⟩ | ⟨doc, choices, -, other, -⟩
    · cases bad.symm.trans other
    · exact ⟨error, draft, found, kind⟩
    · cases bad.symm.trans other
  case unfit =>
    intro path slots unknown document unfit draft
    rcases decoder_cases contents path draft with ⟨other, -⟩ | ⟨other, -⟩ | ⟨doc, choices, added, found, -⟩
    · cases document.symm.trans other
    · cases document.symm.trans other
    · cases document.symm.trans found
      exact absurd (fits_under added) unfit
  case sets =>
    intro path slots unknown document fits draft
    rcases decoder_cases contents path draft with ⟨other, -⟩ | ⟨other, -⟩ | ⟨doc, choices, added, found, decoded⟩
    · cases document.symm.trans other
    · cases document.symm.trans other
    · cases document.symm.trans found
      exact ⟨_, decoded, get_overlay_under added draft⟩

end Draft

namespace Settings

/-! ### All layers -/

theorem ofText?_eq_some_iff {text : String} {mode : ColorMode} :
    ColorMode.ofText? text = some mode ↔ mode.text = text := by
  constructor
  · intro found
    simpa using List.find?_some found
  · rintro rfl
    cases mode <;> rfl

/-- The words for the modes of coloring. -/
theorem exists_text_eq_iff {text : String} :
    (∃ mode : ColorMode, mode.text = text) ↔ text ∈ ["auto", "always", "never"] := by
  constructor
  · rintro ⟨_ | _ | _, rfl⟩ <;> simp [ColorMode.text]
  · simp only [List.mem_cons, List.not_mem_nil, or_false]
    rintro (rfl | rfl | rfl)
    exacts [⟨.auto, rfl⟩, ⟨.always, rfl⟩, ⟨.never, rfl⟩]

/-- Checking a draft changes nothing in it. -/
theorem ofDraft_eq_ok_iff {draft : Draft} {settings : Settings} :
    ofDraft draft = .ok settings ↔ ∀ s, settings.get s = draft.get s := by
  constructor
  · intro accepted
    rw [ofDraft] at accepted
    split at accepted
    · cases accepted
    · rename_i mode found
      split at accepted
      · rename_i positive
        cases accepted
        intro s
        cases s with
        | color => exact ofText?_eq_some_iff.mp found
        | depth => exact Int.toNat_of_nonneg (Int.le_of_lt positive)
        | store | history | prompt => rfl
      · cases accepted
  · intro same
    obtain ⟨store, history, mode, prompt, depth, positive⟩ := settings
    obtain ⟨_, _, _, _, _⟩ := draft
    obtain rfl := same .store
    obtain rfl := same .history
    obtain rfl := same .color
    obtain rfl := same .prompt
    obtain rfl := same .depth
    have found : ColorMode.ofText? mode.text = some mode := ofText?_eq_some_iff.mpr rfl
    simp [ofDraft, Settings.get, found, positive]

/-- A draft is accepted if its color is a word for a mode and its depth is positive. -/
theorem exists_ofDraft_iff {draft : Draft} :
    (∃ settings, ofDraft draft = .ok settings) ↔
      draft.color ∈ ["auto", "always", "never"] ∧ 0 < draft.depth := by
  rw [← exists_text_eq_iff]
  constructor
  · rintro ⟨settings, accepted⟩
    have same := ofDraft_eq_ok_iff.mp accepted
    have depth : (settings.depth : Int) = draft.depth := same .depth
    exact ⟨⟨settings.color, same .color⟩, depth ▸ Int.natCast_pos.mpr settings.depth_pos⟩
  · rintro ⟨⟨mode, word⟩, positive⟩
    simp [ofDraft, ofText?_eq_some_iff.mpr word, positive]

/-- The path of a file of the program in the directory of the user's configuration, if there is one. -/
def standardPath (directory : Option String) (file : String) : String :=
  (directory.map fun place => Path.join [place, "mathcmd", file]).getD ""

/-- The settings of a user who chooses nothing. -/
def standard (directory : Option String) : (s : Setting) → s.Value
  | .store => standardPath directory "mathcmd.db"
  | .history => standardPath directory "history"
  | .color => "auto"
  | .prompt => "> "
  | .depth => (512 : Int)

theorem place_eq (directory : Option String) (file : String) :
    Draft.place directory file = standardPath directory file := by
  cases directory <;> rfl

theorem get_usual (directory : Option String) (s : Setting) :
    (Draft.usual directory).get s = standard directory s := by
  cases s with
  | store | history => exact place_eq directory _
  | color | prompt | depth => rfl

/-- The files of the program are inside of the directory `mathcmd` in that of the user's configuration. -/
theorem standardPath_eq {directory file : String} (inside : Path.cleanParts directory ≠ [])
    (isName : Path.IsName file) :
    standardPath (some directory) file = Path.clean directory ++ "/mathcmd/" ++ file := by
  have each : ∀ name ∈ ["mathcmd", file], Path.IsName name := by
    simp only [List.forall_mem_cons, List.not_mem_nil, false_implies, implies_true, and_true]
    exact ⟨by decide, isName⟩
  have joined : standardPath (some directory) file = "/".intercalate [Path.clean directory, "mathcmd", file] :=
    Path.join_names inside each
  rw [joined, ← String.toList_inj]
  simp

/-- What flags and a file choose for a setting: the value of the last flag for it, or else what the file has under its
    key, or else the standard value. -/
def chosen (directory : Option String) (given : List (Flag × String)) (slots : String → Option Toml.Slot)
    (s : Setting) : s.Value :=
  ((Flags.source.last? given s).or (Content.get slots s)).getD (standard directory s)

/-- What a file gives: nothing if its path is empty, or if no file is named and the standard one is absent, and
    otherwise what stands under its keys, which are all known. -/
inductive Provides (content : String → Content) (directory named : Option String) :
    (String → Option Toml.Slot) → Prop
  | nowhere (empty : named.getD (standardPath directory "config.toml") = "") :
      Provides content directory named fun _ => none
  | absent (unnamed : named = none) (missing : content (standardPath directory "config.toml") = .absent) :
      Provides content directory named fun _ => none
  | document {slots : String → Option Toml.Slot} (filled : named.getD (standardPath directory "config.toml") ≠ "")
      (known : content (named.getD (standardPath directory "config.toml")) = .document slots [])
      (fits : Content.Fits slots) : Provides content directory named slots

section Layers

variable {decode : Decoder} {content : String → Content} {directory named : Option String}

/-- A file is decoded only if it gives something, and then this goes over the draft. -/
theorem exists_of_ofFile (lawful : decode.Lawful content) {draft after : Draft}
    (read : ofFile decode (named.getD (standardPath directory "config.toml")) named.isSome draft = .ok after) :
    ∃ slots, Provides content directory named slots ∧
      ∀ s, after.get s = (Content.get slots s).getD (draft.get s) := by
  rw [ofFile] at read
  split at read
  · rename_i empty
    cases read
    exact ⟨_, .nowhere empty, fun _ => rfl⟩
  · rename_i filled
    cases there : content (named.getD (standardPath directory "config.toml")) with
    | absent =>
      obtain ⟨error, decoded, missing⟩ := lawful.absent there draft
      simp only [decoded, missing, Bool.true_and] at read
      cases named with
      | none =>
        cases read
        exact ⟨_, .absent rfl there, fun _ => rfl⟩
      | some path => cases read
    | faulty =>
      obtain ⟨error, later, decoded, other⟩ := lawful.faulty there draft
      simp [decoded, other] at read
    | document slots unknown =>
      by_cases fits : Content.Fits slots
      · obtain ⟨later, decoded, sets⟩ := lawful.sets there fits draft
        rw [decoded] at read
        cases unknown with
        | nil =>
          cases read
          exact ⟨slots, .document filled there fits, sets⟩
        | cons key keys => cases read
      · obtain ⟨error, later, decoded, other⟩ := lawful.unfit there fits draft
        simp [decoded, other] at read

/-- A file that gives something is decoded. -/
theorem exists_ofFile (lawful : decode.Lawful content) (draft : Draft) {slots : String → Option Toml.Slot}
    (provides : Provides content directory named slots) :
    ∃ after, ofFile decode (named.getD (standardPath directory "config.toml")) named.isSome draft = .ok after ∧
      ∀ s, after.get s = (Content.get slots s).getD (draft.get s) := by
  rw [ofFile]
  cases provides with
  | nowhere empty =>
    rw [if_pos empty]
    exact ⟨draft, rfl, fun _ => rfl⟩
  | absent unnamed missing =>
    subst unnamed
    obtain ⟨error, decoded, isNotFound⟩ := lawful.absent missing draft
    refine ⟨draft, ?_, fun _ => rfl⟩
    split
    · rfl
    · simp [decoded, isNotFound]
  | document filled known fits =>
    obtain ⟨after, decoded, sets⟩ := lawful.sets known fits draft
    rw [if_neg filled, decoded]
    exact ⟨after, rfl, sets⟩

/-- The choices of the flags over what the file has over the usual settings are what is chosen. -/
theorem get_layers {flags : Flags} {given : List (Flag × String)} (gives : Flags.Given .empty given flags)
    (visit : Visit Setting.all) {slots : String → Option Toml.Slot} {draft : Draft}
    (same : ∀ s, draft.get s = (Content.get slots s).getD ((Draft.usual directory).get s)) (s : Setting) :
    (draft.overlay visit flags.choices).get s = chosen directory given slots s := by
  have flag : flags.choices.get s = Flags.source.last? given s := by
    rw [gives.choices.get]
    exact (congrArg _ (Choices.get_empty s)).trans Option.or_none
  rw [Draft.get_overlay, same, get_usual, chosen, flag, Option.getD_or]

/-- The file is read before the choices are checked, and the flags go over both. -/
theorem resolve_eq_ok_iff (visit : Visit Setting.all) {args rest : List String} {flags : Flags} {settings : Settings}
    (accepted : Flags.parse args = .ok flags) :
    resolve decode visit directory args = .ok (settings, rest) ↔ rest = flags.rest ∧
      ∃ draft, ofFile decode (flags.config.getD (standardPath directory "config.toml")) flags.config.isSome
          (Draft.usual directory) = .ok draft ∧
        ofDraft (draft.overlay visit flags.choices) = .ok settings := by
  have path : flags.file directory = flags.config.getD (standardPath directory "config.toml") := by
    rw [Flags.file, Draft.usualFile, place_eq]
  simp only [resolve, accepted, ofFlags, path]
  constructor
  · intro found
    split at found
    · cases found
    · rename_i checked
      cases found
      split at checked
      · cases checked
      · rename_i draft read
        exact ⟨rfl, draft, read, checked⟩
  · rintro ⟨rfl, draft, read, checked⟩
    simp only [read, checked]

/-- Let a decoder set exactly the settings whose keys a file has and tell its unknown keys. Then for arguments whose
    flags can be read, there are settings if the file that is named last, or else the standard one, can be used, and the
    color and the depth that are chosen are allowed. Every setting is the one that is chosen, in whatever order the
    choices of the flags are visited. -/
theorem resolve_layers (lawful : decode.Lawful content) (visit : Visit Setting.all) (directory : Option String)
    {args : List String} {flags : Flags} (accepted : Flags.parse args = .ok flags) :
    ∃ given, Flags.Spelled args given flags.rest ∧
      ((∃ result, resolve decode visit directory args = .ok result) ↔
        ∃ slots, Provides content directory (Flags.lastFile? given) slots ∧
          chosen directory given slots .color ∈ ["auto", "always", "never"] ∧
          (0 : Int) < chosen directory given slots .depth) ∧
      ∀ settings rest, resolve decode visit directory args = .ok (settings, rest) → rest = flags.rest ∧
        ∃ slots, Provides content directory (Flags.lastFile? given) slots ∧
          ∀ s, settings.get s = chosen directory given slots s := by
  obtain ⟨given, spelled, gives⟩ := Flags.parseAfter_given accepted
  have named : flags.config = Flags.lastFile? given := gives.config.trans Option.or_none
  refine ⟨given, spelled, ?_, ?_⟩
  · rw [← named]
    constructor
    · rintro ⟨⟨settings, rest⟩, found⟩
      obtain ⟨-, draft, read, checked⟩ := (resolve_eq_ok_iff visit accepted).mp found
      obtain ⟨slots, provides, same⟩ := exists_of_ofFile lawful read
      have layers := get_layers gives visit same
      obtain ⟨color, depth⟩ := exists_ofDraft_iff.mp ⟨settings, checked⟩
      exact ⟨slots, provides, layers .color ▸ color, layers .depth ▸ depth⟩
    · rintro ⟨slots, provides, color, depth⟩
      obtain ⟨draft, read, same⟩ := exists_ofFile lawful (Draft.usual directory) provides
      have layers := get_layers gives visit same
      rw [← layers] at color depth
      obtain ⟨settings, checked⟩ := exists_ofDraft_iff.mpr ⟨color, depth⟩
      exact ⟨(settings, flags.rest), (resolve_eq_ok_iff visit accepted).mpr ⟨rfl, draft, read, checked⟩⟩
  · intro settings rest found
    obtain ⟨left, draft, read, checked⟩ := (resolve_eq_ok_iff visit accepted).mp found
    obtain ⟨slots, provides, same⟩ := exists_of_ofFile lawful read
    refine ⟨left, slots, named ▸ provides, fun s => ?_⟩
    rw [ofDraft_eq_ok_iff.mp checked, get_layers gives visit same]

/-- The color of the standard file is not allowed, and neither is that of the first flag, but the second flag hides
    both. -/
theorem resolve_layers_hidden :
    let contents (path : String) : Except FileFailure String :=
      if path = "/home/u/.config/mathcmd/config.toml" then .ok "color=''\nprompt='?'\nmax_depth=7"
      else .error .notFound
    let backward : Visit Setting.all := ⟨[.depth, .prompt, .color, .history, .store], by decide⟩
    let directory := some "/home/u/.config"
    let args := ["-color", "purple", "--color=never", "1"]
    ∃ given settings slots, Flags.Spelled args given ["1"] ∧
      resolve (Draft.decoder contents) backward directory args = .ok (settings, ["1"]) ∧
      Provides (Draft.content contents) directory (Flags.lastFile? given) slots ∧
      (∀ s, settings.get s = chosen directory given slots s) ∧ settings.get .depth = (7 : Int) ∧
      [settings.get .color, settings.get .prompt, settings.get .store, settings.get .history] =
        ["never", "?", "/home/u/.config/mathcmd/mathcmd.db", "/home/u/.config/mathcmd/history"] := by
  intro contents backward directory args
  have accepted : Flags.parse args = .ok ⟨none, ⟨none, none, some "never", none, none⟩, ["1"]⟩ := by
    decide +kernel
  have shown : (resolve (Draft.decoder contents) backward directory args).toOption.map (fun found =>
      (found.2, found.1.get .depth,
        [found.1.get .color, found.1.get .prompt, found.1.get .store, found.1.get .history])) =
      some (["1"], (7 : Int),
        ["never", "?", "/home/u/.config/mathcmd/mathcmd.db", "/home/u/.config/mathcmd/history"]) := by
    decide +kernel
  obtain ⟨given, spelled, -, values⟩ := resolve_layers (Draft.lawful_decoder contents) backward directory accepted
  cases found : resolve (Draft.decoder contents) backward directory args with
  | error error =>
    rw [found] at shown
    cases shown
  | ok result =>
    obtain ⟨settings, rest⟩ := result
    simp only [found, Except.toOption, Option.map_some, Option.some.injEq, Prod.mk.injEq] at shown
    obtain ⟨rfl, depth, texts⟩ := shown
    obtain ⟨-, slots, provides, same⟩ := values settings ["1"] found
    exact ⟨given, settings, slots, spelled, rfl, provides, same, depth, texts⟩

/-- Without a directory for the user's configuration there are settings, and a file that is named has its say. -/
example : resolve (Draft.decoder fun _ => .ok "store='s.db'\nhistory='h'") .listed none ["-config", "f", "--", "-x"] =
    .ok (⟨"s.db", "h", .auto, "> ", 512, Nat.succ_pos 511⟩, ["-x"]) := by
  cbv

end Layers

end Settings

end Reckon
