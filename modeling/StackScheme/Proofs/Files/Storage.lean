import StackScheme.Directory
import StackScheme.Proofs.Sequence

/-! What is read from a file is what has been written to it. Only folders are entered on the way to
a place, and a file is never put where a folder is, so every name that leads somewhere leads to the
same place when a file has been written. -/
namespace StackScheme.Directory
open Fallible

/-- The directory with these bytes in a file. -/
def store (directory : Directory) (location : Location) (bytes : ByteArray) : Directory :=
  { directory with files := directory.files.insert location bytes }

/-- What is at a place, however long its name is. -/
def content? (directory : Directory) (location : Location) : Option Entry :=
  if directory.isFolder location then some .folder
  else match directory.devices.find? location with
    | some device => some (.device device)
    | none => (directory.files.find? location).map .file

variable {directory : Directory} {name : String} {location place : Location} {bytes : ByteArray}

theorem look_eq_ok_iff {entry : Option Entry} : directory.look place = .ok entry ↔
    place.head?.any (·.utf8ByteSize > nameLimit) = false ∧ directory.content? place = entry := by
  unfold look content?
  split
  · rename_i long
    simp [long]
  · rename_i short
    rw [Bool.not_eq_true] at short
    cases directory.devices.find? place <;> split <;> simp [short]

theorem content?_eq_folder_iff :
    directory.content? place = some .folder ↔ directory.isFolder place = true := by
  unfold content?
  split
  · simp [*]
  · split <;> simp [*]

theorem look_store (found : directory.look place = .ok (some .folder)) :
    (directory.store location bytes).look place = .ok (some .folder) := by
  rw [look_eq_ok_iff, content?_eq_folder_iff] at found ⊢
  exact found

theorem enter_store {step : PathStep} {next : Location}
    (entered : directory.enter place step = .ok next) :
    (directory.store location bytes).enter place step = .ok next := by
  cases step with
  | stay | up => exact entered
  | down name =>
    unfold enter at entered ⊢
    dsimp only at entered ⊢
    split at entered
    · rename_i found
      rw [look_store found]
      exact entered
    all_goals contradiction

theorem walk_store {steps : List PathStep} {last : Location}
    (walked : steps.foldlM directory.enter place = .ok last) :
    steps.foldlM (directory.store location bytes).enter place = .ok last := by
  induction steps generalizing place with
  | nil => exact walked
  | cons step rest ih =>
    rw [List.foldlM_cons] at walked ⊢
    obtain ⟨next, entered, walked⟩ := bind_eq_ok.mp walked
    exact bind_eq_ok.mpr ⟨next, enter_store entered, ih walked⟩

theorem reach_store (reached : directory.reach name = .ok place) :
    (directory.store location bytes).reach name = .ok place := by
  unfold reach at reached ⊢
  dsimp only at reached ⊢
  rw [check_eq_ok, check_eq_ok, check_eq_ok] at reached ⊢
  obtain ⟨whole, named, short, reached⟩ := reached
  obtain ⟨folder, walked, last⟩ := bind_eq_ok.mp reached
  exact ⟨whole, named, short, bind_eq_ok.mpr ⟨folder, walk_store walked, last⟩⟩

/-- A name that can be written to leads to a place that is no folder, and does not ask for one. -/
theorem writable_eq_ok_iff : directory.writable name = .ok place ↔
    directory.reach name = .ok place ∧ (Path.ofString name).endsInSlash = false ∧
      place.head?.any (·.utf8ByteSize > nameLimit) = false ∧ directory.isFolder place = false := by
  unfold writable
  dsimp only
  constructor
  · intro found
    obtain ⟨location, reached, found⟩ := bind_eq_ok.mp found
    obtain ⟨plain, found⟩ := check_eq_ok.mp found
    obtain ⟨entry, looked, found⟩ := bind_eq_ok.mp found
    obtain ⟨short, known⟩ := look_eq_ok_iff.mp looked
    have outside : entry ≠ some .folder ∧ location = place := by
      split at found
      · contradiction
      all_goals exact ⟨by simp, Except.ok.inj found⟩
    obtain ⟨other, rfl⟩ := outside
    rw [← known, Ne, content?_eq_folder_iff, Bool.not_eq_true] at other
    exact ⟨reached, by simpa using plain, short, other⟩
  · rintro ⟨reached, plain, short, outside⟩
    refine bind_eq_ok.mpr ⟨place, reached, check_eq_ok.mpr ⟨by simp [plain], ?_⟩⟩
    have looked : directory.look place = .ok (directory.content? place) :=
      look_eq_ok_iff.mpr ⟨short, rfl⟩
    refine bind_eq_ok.mpr ⟨_, looked, ?_⟩
    split
    · rename_i folder
      rw [content?_eq_folder_iff, outside] at folder
      contradiction
    all_goals rfl

theorem writable_store (found : directory.writable name = .ok place) :
    (directory.store location bytes).writable name = .ok place := by
  rw [writable_eq_ok_iff] at found ⊢
  exact ⟨reach_store found.1, found.2⟩

theorem content?_store (outside : directory.isFolder location = false)
    (plain : directory.devices.find? location = none) :
    (directory.store location bytes).content? location = some (.file bytes) := by
  have same : (directory.store location bytes).isFolder location = false := outside
  rw [content?, same]
  simp [store, plain]

/-- What has been written under a name is read under the name. -/
theorem readBytes_store (found : directory.writable name = .ok location)
    (plain : directory.devices.find? location = none) :
    (directory.store location bytes).readBytes name = .ok bytes := by
  obtain ⟨reached, noSlash, short, outside⟩ := writable_eq_ok_iff.mp found
  have looked : (directory.store location bytes).look location = .ok (some (.file bytes)) :=
    look_eq_ok_iff.mpr ⟨short, content?_store outside plain⟩
  refine bind_eq_ok.mpr ⟨location, reach_store reached, bind_eq_ok.mpr ⟨_, looked, ?_⟩⟩
  exact check_eq_ok.mpr ⟨by simp [noSlash], rfl⟩

/-- Under another place there is what there was. -/
theorem content?_store_other (other : place ≠ location) :
    (directory.store location bytes).content? place = directory.content? place := by
  have absent : (directory.store location bytes).files.find? place =
      directory.files.find? place := by
    simp [store, Ne.symm other]
  unfold content?
  rw [absent]
  rfl

/-- Of two texts that are written to a file the later one stays. -/
theorem store_store (later : ByteArray) :
    (directory.store location bytes).store location later = directory.store location later := by
  simp [store, Table.insert_insert]

/-- Writing to a file succeeds whenever the file can be opened. -/
theorem write_file (found : directory.writable name = .ok location)
    (plain : directory.devices.find? location = none) (text : String) :
    directory.write name text = .ok (directory.store location text.toUTF8) := by
  simp only [write, found, Except.bind, put, plain]
  rfl

/-- What is written to a device changes no file. -/
theorem write_device {device : Device} (found : directory.writable name = .ok location)
    (known : directory.devices.find? location = some device) {text : String} {after : Directory}
    (written : directory.write name text = .ok after) : after = directory := by
  obtain ⟨place, again, kept⟩ := bind_eq_ok.mp (mapError_eq_ok.mp written)
  cases found.symm.trans again
  simp only [put, known] at kept
  cases taken : device.put text with
  | error cause =>
    rw [taken] at kept
    contradiction
  | ok done =>
    rw [taken] at kept
    exact (Except.ok.inj kept).symm

/-- The text stands in the file that the name leads to, and everywhere else there is what there was
before. A device keeps no text. -/
structure Saves (before : Directory) (name text : String) (after : Directory) : Prop where
  opened : ∃ location, before.writable name = .ok location
  others : ∀ place, before.reach name ≠ .ok place → after.content? place = before.content? place
  file : ∀ location, before.reach name = .ok location → before.devices.find? location = none →
    after.readBytes name = .ok text.toUTF8
  device : ∀ location device, before.reach name = .ok location →
    before.devices.find? location = some device → after = before

theorem saves_store (found : directory.writable name = .ok location)
    (plain : directory.devices.find? location = none) (text : String) :
    directory.Saves name text (directory.store location text.toUTF8) := by
  have reached := (writable_eq_ok_iff.mp found).1
  refine ⟨⟨location, found⟩, fun place other => content?_store_other ?_,
    fun _ _ _ => readBytes_store found plain, ?_⟩
  · rintro rfl
    exact other reached
  · intro other device again known
    cases reached.symm.trans again
    rw [plain] at known
    contradiction

theorem saves_device {device : Device} (found : directory.writable name = .ok location)
    (known : directory.devices.find? location = some device) (text : String) :
    directory.Saves name text directory := by
  refine ⟨⟨location, found⟩, fun _ _ => rfl, fun other again plain => ?_, fun _ _ _ _ => rfl⟩
  cases (writable_eq_ok_iff.mp found).1.symm.trans again
  rw [plain] at known
  contradiction

/-- What has been stored as text is read as this text, with newlines at the ends of its lines. -/
theorem read_text {text : String} (stored : directory.readBytes name = .ok text.toUTF8) :
    directory.read name = .ok (Text.unifyNewlines text) := by
  have decoded : String.fromUTF8? text.toUTF8 = some text := dif_pos text.isValidUTF8
  simp only [read, stored, decoded]

end StackScheme.Directory
