import LoraIot.Config.Calls
import LoraIot.Vars.FlashLoad

/-!
# Saving, restarting and loading

`flash_save` stores as many characters of a string as its recorded length says,
and after a restart `flash_load` lays them over the compiled-in default.
Numbers and binaries always come back.  A string comes back when its recorded
length covers it, or when the characters that were not stored happen to be
those of the default.  Only the Bluetooth callbacks make a string longer than
its recorded length.
-/

namespace LoraIot.Config

open LoraIot.CStrings LoraIot.Vars LoraIot.Gatt LoraIot.Runs

/-- The variables after a save, a restart and a start-up. -/
def reloaded (saveEnv loadEnv : Env) (device : Device) : Store :=
  (varsInit loadEnv 0 ⟨Store.initial, (flashSave saveEnv device).2⟩).2.store

/-- Every saved row has the value it had when it was saved. -/
def SurvivesRestart (saveEnv loadEnv : Env) (device : Device) : Prop :=
  ∀ row ∈ setget, ∀ var ∈ row.savedVar,
    Store.SameValue var ((reloaded saveEnv loadEnv device).cell var)
      (device.store.cell var)

/-- The stored characters determine the string. -/
def Covered (store : Store) (var : Var) : Prop :=
  strlen (store.data var) ≤ store.length var ∨
    cstr ((store.data var).drop (store.length var + 1)) =
      cstr ((Store.initial.data var).drop (store.length var + 1))

def StringsCovered (store : Store) : Prop :=
  ∀ row ∈ setget, ∀ var ∈ row.savedVar,
    var.declaration.vtype = .str → Covered store var

theorem reloaded_data {saveEnv loadEnv : Env} {device : Device}
    (writes : ∀ id, saveEnv.writeFails id 0 = false)
    (reads : ∀ id, loadEnv.readFails id = false) {row : Row}
    (listed : row ∈ setget) {var : Var} (targets : row.savedVar = some var) :
    (reloaded saveEnv loadEnv device).cell var =
      ((device.store.data var).take
          (saveCount var.declaration.vtype device.store var) ++
        (Store.initial.data var).drop
          (saveCount var.declaration.vtype device.store var),
        loadedLength loadEnv var.declaration.vtype var
          (some (saveEnv.bytes device.store var
            (saveCount var.declaration.vtype device.store var)))
          (Store.initial.data var) (Store.initial.length var)) := by
  have stored := flashSave_of_success writes device listed targets
  have found :
      loadEnv.entry (flashSave saveEnv device).2 row.saveId.code =
        some (saveEnv.bytes device.store var
          (saveCount row.vtype device.store var)) := by
    rw [Env.entry, if_neg (by simp [reads]), stored]
  have loaded := flashLoad_cell loadEnv
    ⟨Store.initial, (flashSave saveEnv device).2⟩ listed targets
  rw [found, savedVar_vtype listed targets] at loaded
  have room : loadCount var.declaration.vtype var = var.size := by
    have size := size_of_vtype var
    cases kind : var.declaration.vtype with
    | custom => exact absurd kind var.declaration.vtype_ne_custom
    | str => rfl
    | binary => rfl
    | _ =>
        rw [kind] at size
        exact size.symm
  have data :
      loadedData var.declaration.vtype var
          (some (saveEnv.bytes device.store var
            (saveCount var.declaration.vtype device.store var)))
          (Store.initial.data var) =
        (device.store.data var).take
            (saveCount var.declaration.vtype device.store var) ++
          (Store.initial.data var).drop
            (saveCount var.declaration.vtype device.store var) := by
    have sameSize :
        (device.store.data var).length =
          (Store.initial.data var).length :=
      (device.store.sized var).trans (Store.initial.sized var).symm
    rw [loadedData, room, Env.bytes_take, overlay_take sameSize]
  change (flashLoad loadEnv _).2.cell var = _
  rw [loaded, data]

/-- A variable comes back exactly when it is no string or the stored
characters determine it. -/
theorem sameValue_reloaded_iff {saveEnv loadEnv : Env} {device : Device}
    (writes : ∀ id, saveEnv.writeFails id 0 = false)
    (reads : ∀ id, loadEnv.readFails id = false) {row : Row}
    (listed : row ∈ setget) {var : Var} (targets : row.savedVar = some var) :
    Store.SameValue var ((reloaded saveEnv loadEnv device).cell var)
        (device.store.cell var) ↔
      (var.declaration.vtype = .str → Covered device.store var) := by
  rw [reloaded_data writes reads listed targets]
  have size := size_of_vtype var
  have whole := device.store.sized var
  have initialWhole := Store.initial.sized var
  rw [Store.SameValue]
  cases kind : var.declaration.vtype with
  | str =>
      simp only [saveCount, Store.cell, forall_const]
      rw [cstr_splice_iff, zero_mem_take_iff]
      constructor
      · intro agrees
        rcases agrees with ⟨_, short⟩ | sameTail
        · exact Or.inl (by omega)
        · exact Or.inr sameTail
      · intro covered
        rcases covered with short | sameTail
        · by_cases terminated : (0 : UInt8) ∈ device.store.data var
          · exact Or.inl ⟨terminated, by omega⟩
          · -- Without a terminator the string fills the array, so nothing
            -- of the array is left out.
            have fills : strlen (device.store.data var) = var.size := by
              rw [strlen, cstr_eq_self terminated, whole]
            refine Or.inr ?_
            rw [List.drop_eq_nil_of_le (by omega),
              List.drop_eq_nil_of_le (by omega)]
        · exact Or.inr sameTail
  | binary =>
      simp only [saveCount, Store.cell, loadedLength, Option.map_some,
        Option.getD_some, Env.bytes_length, and_true, reduceCtorEq,
        false_imp_iff, iff_true]
      rcases Nat.le_total (device.store.length var) var.size with
        inside | outside
      · exact List.take_left' (by rw [List.length_take]; omega)
      · rw [List.drop_eq_nil_of_le (by omega), List.append_nil,
          List.take_take, Nat.min_self]
  | custom => exact absurd kind var.declaration.vtype_ne_custom
  | _ =>
      rw [kind] at size
      simp only [saveCount, Store.cell, reduceCtorEq, false_imp_iff, iff_true]
      rw [List.take_of_length_le (by omega),
        List.drop_eq_nil_of_le (by omega), List.append_nil]

theorem survivesRestart_iff {saveEnv loadEnv : Env} {device : Device}
    (writes : ∀ id, saveEnv.writeFails id 0 = false)
    (reads : ∀ id, loadEnv.readFails id = false) :
    SurvivesRestart saveEnv loadEnv device ↔
      StringsCovered device.store := by
  constructor
  · intro survives row listed var targets
    exact (sameValue_reloaded_iff writes reads listed targets).mp
      (survives row listed var targets)
  · intro covered row listed var targets
    exact (sameValue_reloaded_iff writes reads listed targets).mpr
      (covered row listed var targets)

def LengthsCover (store : Store) : Prop :=
  ∀ var, var.declaration.vtype = .str →
    strlen (store.data var) ≤ store.length var

/-- A Bluetooth write stays inside its variable and does not make a string
longer than its recorded length. -/
def WritesWithinLength (device : Device) (call : Call) : Prop :=
  match call.effect with
  | .write _ item buf offset =>
      ¬ item.Strays buf offset ∧
        (item.userData.declaration.vtype = .str →
          offset + buf.length ≤ item.userData.size →
            strlen (overlay (device.store.data item.userData) offset buf) ≤
              device.store.length item.userData)
  | _ => True

theorem initial_lengthsCover : LengthsCover Store.initial := by
  intro var isStr
  cases var <;> first | decide | cases isStr

theorem LengthsCover.step {device next : Device} {call : Call}
    (cover : LengthsCover device.store)
    (within : WritesWithinLength device call)
    (taken : Config.step device call = some next) :
    LengthsCover next.store := by
  obtain rfl := Option.some.inj taken
  rw [perform_eq]
  rw [WritesWithinLength] at within
  cases acts : call.effect with
  | restart => exact initial_lengthsCover
  | load env =>
      intro var isStr
      rcases flashLoad_saved_or_kept env device var with
        ⟨row, listed, targets⟩ | same
      · obtain ⟨data, length⟩ := Prod.mk.inj
          (flashLoad_cell env device listed targets)
        simp only [Effect.apply, data, length, loadedLength,
          savedVar_vtype listed targets, isStr]
        exact strlen_le_append _ _
      · obtain ⟨data, length⟩ := Prod.mk.inj same
        simp only [Effect.apply, data, length]
        exact cover var isStr
  | assign env target text =>
      intro var isStr
      by_cases same : var = target
      · subst same
        obtain ⟨data, length⟩ :=
          Prod.mk.inj (assign_cell_str env isStr text device)
        rw [data, length]
        exact strlen_le_append _ _
      · obtain ⟨data, length⟩ := assign_of_ne env same text device
        rw [data, length]
        exact cover var isStr
  | write env item buf offset =>
      rw [acts] at within
      obtain ⟨inside, short⟩ := within
      intro var isStr
      simp only [Effect.apply, item.write_length env inside]
      by_cases same : var = item.userData
      · subst same
        rcases item.write_snd env inside device.store with
          unchanged | ⟨bytes, fits, isBuf, written⟩
        · rw [unchanged]
          exact cover _ isStr
        · have notDatarate : item ≠ .loraDatarate := by
            intro same
            subst same
            cases isStr
          obtain rfl := isBuf notDatarate
          rw [written, Store.write_data_self]
          exact short isStr fits
      · rw [item.write_data_of_ne env inside device.store same]
        exact cover var isStr
  | _ => exact cover

/-- What a run saves survives a restart exactly when the stored characters
determine every saved string at the end, and this is so at the end of every
run whose Bluetooth writes do not make a string longer than its recorded
length. -/
theorem saved_values_survive_iff (nvs : Nvs) (calls : List Call)
    (device : Device)
    (reached : execute step ⟨Store.initial, nvs⟩ calls = some device)
    (saveEnv loadEnv : Env) (writes : ∀ id, saveEnv.writeFails id 0 = false)
    (reads : ∀ id, loadEnv.readFails id = false) :
    (SurvivesRestart saveEnv loadEnv device ↔
        StringsCovered device.store) ∧
      (Meets step WritesWithinLength ⟨Store.initial, nvs⟩ calls →
        SurvivesRestart saveEnv loadEnv device) := by
  refine ⟨survivesRestart_iff writes reads, fun within => ?_⟩
  have cover : LengthsCover device.store :=
    execute_invariant (fun device => LengthsCover device.store)
      initial_lengthsCover
      (fun _ _ _ cover here taken => cover.step here taken)
      within reached
  exact (survivesRestart_iff writes reads).mpr
    fun row listed var targets isStr => Or.inl (cover var isStr)

/-- The string `OTAA`, set over the command interface, survives. -/
theorem otaa_survives :
    SurvivesRestart Env.quiet Env.quiet
      (Call.perform factory
        (.varsSet Env.quiet (ascii "auth") (some (ascii "OTAA")))) :=
  (saved_values_survive_iff (fun _ => none)
    [.varsSet Env.quiet (ascii "auth") (some (ascii "OTAA"))] _ rfl
    Env.quiet Env.quiet (fun _ => rfl) (fun _ => rfl)).2
    ⟨trivial, fun _ _ => trivial⟩

/-- A client as the interface asks for: it sets strings shorter than their
arrays, and its Bluetooth writes leave every string terminated. -/
def KeepsStrings (device : Device) (call : Call) : Prop :=
  match call.effect with
  | .assign _ var text =>
      var.declaration.vtype = .str → strlen text < var.size
  | .write env item buf offset =>
      ¬ item.Strays buf offset ∧
        ∀ var, var.declaration.vtype = .str →
          0 ∈ (item.write env buf offset device.store).2.data var
  | _ => True

/-- Setting `auth` to `A`, and then writing `OTAA` over Bluetooth. -/
def renamed : List Call :=
  [.varsSet Env.quiet (ascii "auth") (some (ascii "A")),
    .write Env.quiet .loraAuth (ascii "OTAA") 0]

/-- After these two calls, `auth` comes back from a restart as `OTP`. -/
theorem renamed_does_not_survive :
    ¬ ∀ (calls : List Call) (device : Device),
      Meets step KeepsStrings factory calls →
        execute step factory calls = some device →
          ∀ saveEnv loadEnv : Env,
            (∀ id, saveEnv.writeFails id 0 = false) →
              (∀ id, loadEnv.readFails id = false) →
                SurvivesRestart saveEnv loadEnv device := by
  intro always
  have kept : Meets step KeepsStrings factory renamed := by
    refine ⟨fun _ => by decide, fun next taken => ?_⟩
    obtain rfl := Option.some.inj taken
    refine ⟨⟨by decide, fun var isStr => ?_⟩, fun _ _ => trivial⟩
    cases var <;> first | decide | cases isStr
  have survives := always renamed _ kept rfl Env.quiet Env.quiet
    (fun _ => rfl) (fun _ => rfl)
  have covered := (survivesRestart_iff (fun _ => rfl) fun _ => rfl).mp
    survives (plainRow "auth" .str .readwrite (some .loraAuth) .loraAuth)
    (by decide) .loraAuth rfl rfl
  have uncovered :
      ¬ Covered (Call.perform (Call.perform factory
        (.varsSet Env.quiet (ascii "auth") (some (ascii "A"))))
        (.write Env.quiet .loraAuth (ascii "OTAA") 0)).store .loraAuth := by
    rw [Covered]
    decide
  exact uncovered covered

end LoraIot.Config
