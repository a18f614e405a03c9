import LoraIot.Foundations.Runs
import LoraIot.Gatt.Config
import LoraIot.Lora.Configure
import LoraIot.Lora.Notifications

/-!
# Strings that are written past `vars_set`

`main` copies the version into `firmware`, and the Bluetooth callbacks copy
pieces into `auth` and `class`.  Each copy is bounded by the array and may fill
it, while `lora_configure` and `uart_send` look for a terminator.
-/

namespace LoraIot.Config

open LoraIot.CStrings LoraIot.Runs LoraIot.Vars LoraIot.Gatt LoraIot.Lora

/-- `main`: `strncpy(var_firmware.data, GIT_TAG, var_firmware.size)` -/
def copyGitTag (tag : List UInt8) (store : Store) : Store :=
  store.write .firmware 0 (strncpyBytes tag Var.firmware.size)

/-- The calls that write `auth` and `class` without `vars_set`. -/
inductive StringCall where
  | writeLoraAuth (buf : List UInt8) (offset : Nat)
  | writeLoraClass (buf : List UInt8) (offset : Nat)
  | loraConfigure (env : Env) (joinCfg : JoinConfig)

/-- One call; a write that is refused changes nothing. -/
def stringStep (store : Store) : StringCall → Option Store
  | .writeLoraAuth buf offset =>
      some (Gatt.writeLoraAuth buf offset store).2
  | .writeLoraClass buf offset =>
      some (Gatt.writeLoraClass buf offset store).2
  | .loraConfigure env joinCfg =>
      some (Lora.loraConfigure env store joinCfg).store

/-- The three strings are terminated inside their arrays, and so those who
scan them read and convert nothing outside, whatever stands there. -/
structure StringsSafe (store : Store) : Prop where
  firmware : 0 ∈ store.data .firmware
  auth : 0 ∈ store.data .loraAuth
  devClass : 0 ∈ store.data .loraClass
  /-- `uart_send(var_firmware.data, 0)` -/
  sent : ∀ env : Env,
    uartSendExtent (env.memory store .firmware) 0 ≤ Var.firmware.size
  /-- `strupr` and `strcmp` -/
  scanned : ∀ env : Env,
    strlen (env.memory store .loraAuth) < Var.loraAuth.size ∧
      strlen (env.memory store .loraClass) < Var.loraClass.size
  converted : ∀ (env : Env) (joinCfg : JoinConfig),
    (∀ var, var ≠ .loraClass → var ≠ .loraAuth →
        (Lora.loraConfigure env store joinCfg).store.data var =
          store.data var) ∧
      (Lora.loraConfigure env store joinCfg).store.length = store.length

theorem stringsSafe_iff (store : Store) :
    StringsSafe store ↔
      0 ∈ store.data .firmware ∧ 0 ∈ store.data .loraAuth ∧
        0 ∈ store.data .loraClass := by
  constructor
  · intro safe
    exact ⟨safe.firmware, safe.auth, safe.devClass⟩
  · intro terminated
    obtain ⟨firmware, auth, devClass⟩ := terminated
    have inside (env : Env) {var : Var} (hasNul : 0 ∈ store.data var) :
        strlen (env.memory store var) < var.size := by
      rw [env.strlen_memory hasNul, ← store.sized var]
      exact (strlen_lt_length_iff _).mpr hasNul
    refine ⟨firmware, auth, devClass, ?_, ?_, ?_⟩
    · intro env
      rw [uartSendExtent, if_pos rfl]
      exact inside env firmware
    · intro env
      exact ⟨inside env auth, inside env devClass⟩
    · intro env joinCfg
      have left := loraConfigure_store devClass auth env joinCfg
      exact ⟨left.2.2.1, left.2.2.2⟩

/-- An accepted write brings a terminator, or one stands in front of it or
behind it. -/
def LeavesTerminator (var : Var) (buf : List UInt8) (offset : Nat)
    (store : Store) : Prop :=
  offset + buf.length ≤ var.size →
    0 ∈ buf ∨ 0 ∈ (store.data var).take offset ∨
      0 ∈ (store.data var).drop (offset + buf.length)

def KeepsTerminator (store : Store) : StringCall → Prop
  | .writeLoraAuth buf offset => LeavesTerminator .loraAuth buf offset store
  | .writeLoraClass buf offset => LeavesTerminator .loraClass buf offset store
  | .loraConfigure _ _ => True

theorem writeVariable_terminated_iff {var : Var} {store : Store}
    (buf : List UInt8) (offset : Nat) (terminated : 0 ∈ store.data var) :
    0 ∈ (writeVariable var buf offset store).2.data var ↔
      LeavesTerminator var buf offset store := by
  by_cases fits : offset + buf.length ≤ var.size
  · have copied : (writeVariable var buf offset store).2 =
        store.write var offset buf := by
      rw [writeVariable, if_neg (Nat.not_lt.mpr fits)]
    rw [copied, Store.write_data_self,
      zero_mem_overlay_iff _ _ (store.sized var ▸ fits)]
    exact ⟨fun left _ => left, fun left => left fits⟩
  · have refused : (writeVariable var buf offset store).2 = store := by
      rw [writeVariable, if_pos (Nat.lt_of_not_le fits)]
    rw [refused]
    exact iff_of_true terminated fun accepted => absurd accepted fits

/-- A call keeps the strings safe exactly when it leaves a terminator. -/
theorem stringStep_safe_iff {store next : Store} {call : StringCall}
    (safe : StringsSafe store) (taken : stringStep store call = some next) :
    StringsSafe next ↔ KeepsTerminator store call := by
  cases call with
  | writeLoraAuth buf offset =>
      obtain rfl := Option.some.inj taken
      rw [stringsSafe_iff, KeepsTerminator, Gatt.writeLoraAuth,
        writeVariable_data_of_ne buf offset store
          (show Var.firmware ≠ .loraAuth by decide),
        writeVariable_data_of_ne buf offset store
          (show Var.loraClass ≠ .loraAuth by decide),
        writeVariable_terminated_iff buf offset safe.auth]
      simp only [safe.firmware, safe.devClass, true_and, and_true]
  | writeLoraClass buf offset =>
      obtain rfl := Option.some.inj taken
      rw [stringsSafe_iff, KeepsTerminator, Gatt.writeLoraClass,
        writeVariable_data_of_ne buf offset store
          (show Var.firmware ≠ .loraClass by decide),
        writeVariable_data_of_ne buf offset store
          (show Var.loraAuth ≠ .loraClass by decide),
        writeVariable_terminated_iff buf offset safe.devClass]
      simp only [safe.firmware, safe.auth, true_and]
  | loraConfigure env joinCfg =>
      obtain rfl := Option.some.inj taken
      obtain ⟨devClass, auth, others, _⟩ :=
        loraConfigure_store safe.devClass safe.auth env joinCfg
      rw [stringsSafe_iff, others .firmware (by decide) (by decide)]
      exact iff_of_true ⟨safe.firmware, auth, devClass⟩ trivial

theorem copyGitTag_safe_iff (tag : List UInt8) :
    StringsSafe (copyGitTag tag Store.initial) ↔
      strlen tag < Var.firmware.size := by
  have firmware :
      (copyGitTag tag Store.initial).data .firmware =
        strncpyBytes tag Var.firmware.size :=
    Store.initial.write_full .firmware _ (strncpyBytes_length tag _)
  have auth :
      (copyGitTag tag Store.initial).data .loraAuth =
        Store.initial.data .loraAuth :=
    Store.write_data_of_ne _ _ _ _ _ (by decide)
  have devClass :
      (copyGitTag tag Store.initial).data .loraClass =
        Store.initial.data .loraClass :=
    Store.write_data_of_ne _ _ _ _ _ (by decide)
  rw [stringsSafe_iff, firmware, auth, devClass, zero_mem_strncpyBytes_iff]
  exact and_iff_left (by decide)

/-- From the static initialisers and the copy of the version on, the strings
stay safe exactly when the version is shorter than its array and every write
leaves a terminator. -/
theorem strings_stay_safe_iff (tag : List UInt8) (calls : List StringCall) :
    Visits stringStep StringsSafe (copyGitTag tag Store.initial) calls ↔
      strlen tag < Var.firmware.size ∧
        Meets stringStep KeepsTerminator (copyGitTag tag Store.initial)
          calls := by
  by_cases fits : strlen tag < Var.firmware.size
  · have enabled (store : Store) (call : StringCall) :
        ∃ next, stringStep store call = some next := by
      cases call <;> exact ⟨_, rfl⟩
    have kept := visits_iff_meets enabled
      (fun _ _ _ => stringStep_safe_iff) ((copyGitTag_safe_iff tag).mpr fits)
      calls
    rw [kept]
    exact (and_iff_right fits).symm
  · refine iff_of_false ?_ fun both => fits both.1
    intro visits
    exact fits ((copyGitTag_safe_iff tag).mp visits.start)

/-- Two characters fill the array of `class`. -/
theorem writeLoraClass_not_safe :
    ¬ ∀ (tag : List UInt8) (calls : List StringCall),
      Visits stringStep StringsSafe (copyGitTag tag Store.initial) calls := by
  intro always
  have visits := always (ascii "v1.0.0") [.writeLoraClass (ascii "AA") 0]
  have safe : StringsSafe
      (Gatt.writeLoraClass (ascii "AA") 0
        (copyGitTag (ascii "v1.0.0") Store.initial)).2 :=
    visits.2 _ rfl
  exact absurd safe.devClass (by decide)

end LoraIot.Config
