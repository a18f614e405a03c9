import LoraIot.Config.Calls
import LoraIot.Vars.Replay

/-!
# The Bluetooth path against the command path

Ten variables can be written both ways.  For numbers and binaries the two
writers leave the same value.  A string agrees only when its recorded length
already was the new one and a terminator follows the copied characters, since
the Bluetooth callbacks copy bytes and do nothing else.
-/

namespace LoraIot.Config

open LoraIot.CStrings LoraIot.Numerals LoraIot.Vars LoraIot.Gatt LoraIot.Runs

def key : Characteristic → List UInt8
  | .loraAppSkey => ascii "appskey"
  | .loraNwkSkey => ascii "nwkskey"
  | .loraAppEui => ascii "appeui"
  | .loraAppKey => ascii "appkey"
  | .loraDevEui => ascii "deveui"
  | .loraAuth => ascii "auth"
  | .loraClass => ascii "class"
  | .loraChanMask => ascii "chanmask"
  | .loraDatarate => ascii "datarate"
  | .loraAdr => ascii "adrenabled"

/-- The bytes `wire` and the text `text` stand for one legal value of the
variable. -/
def Encodes (var : Var) (wire text : List UInt8) : Prop :=
  match var.declaration.vtype with
  | .binary => wire.length = var.size ∧ text = ascii "0x" ++ hexText wire
  | .str =>
      text ≠ [] ∧ 0 ∉ text ∧ text.length < var.size ∧
        (wire = text ∨ wire = text ++ [0])
  | .uint8 =>
      ∃ number < 256, wire = [UInt8.ofNat number] ∧ text = decimal number
  | .boolean => ∃ truth, wire = [if truth then 1 else 0] ∧
      text = boolText truth
  | _ => False

/-- Writing the bytes over Bluetooth and setting the text by command leave the
variable with the same value and the same recorded length. -/
def PathsAgree (env later : Env) (item : Characteristic)
    (wire text : List UInt8) (device : Device) : Prop :=
  let written := (item.write env wire 0 device.store).2
  let set := (varsSet later (key item) (some text) device).device.store
  Store.SameValue item.userData (written.cell item.userData)
      (set.cell item.userData) ∧
    written.length item.userData = set.length item.userData

def CopySuffices (var : Var) (wire text : List UInt8) (store : Store) :
    Prop :=
  match var.declaration.vtype with
  | .str =>
      store.length var = text.length ∧
        (0 ∈ wire ∨ (store.data var).getD text.length 0 = 0)
  | .binary => store.length var = var.size
  | _ => True

theorem exists_row (item : Characteristic) :
    ∃ row : Row, row.Plain item.userData ∧ row.key = key item := by
  have listed :
      ∃ row ∈ setget, row.key = key item ∧ row.vdir = .readwrite ∧
        row.var = some item.userData ∧ row.set = none ∧ row.get = none := by
    cases item <;> decide
  obtain ⟨row, listed, keyIs, vdir, points, set, get⟩ := listed
  exact ⟨row, ⟨listed, vdir, points, set, get⟩, keyIs⟩

theorem varsSet_item (later : Env) (item : Characteristic)
    {text : List UInt8} (nonempty : text.headD 0 ≠ 0) (device : Device) :
    (varsSet later (key item) (some text) device).device =
      (Effect.assign later item.userData text).apply device := by
  obtain ⟨row, plain, keyIs⟩ := exists_row item
  rw [← keyIs, varsSet_device, setEffect_plain plain later nonempty]

theorem write_item (env : Env) (item : Characteristic) (wire : List UInt8)
    (fits : wire.length ≤ item.userData.size) (isByte : item = .loraDatarate →
      wire.length = 1) (store : Store) :
    (item.write env wire 0 store).2 = store.write item.userData 0 wire := by
  by_cases isDatarate : item = .loraDatarate
  · obtain ⟨byte, rfl⟩ := List.length_eq_one_iff.mp (isByte isDatarate)
    subst isDatarate
    rfl
  · rw [Characteristic.write_of_ne_datarate env isDatarate, writeVariable,
      if_neg (by omega)]

/-- Copying a string over an array leaves exactly the string when a terminator
comes with it or follows it. -/
theorem cstr_overlay_iff {data wire text : List UInt8} (noNul : 0 ∉ text)
    (fits : text.length < data.length)
    (wireIs : wire = text ∨ wire = text ++ [0]) :
    cstr (overlay data 0 wire) = text ↔
      0 ∈ wire ∨ data.getD text.length 0 = 0 := by
  rcases wireIs with rfl | rfl
  · rw [overlay_zero_of_le (Nat.le_of_lt fits),
      cstr_append_eq_left_iff noNul, cstr_eq_nil_iff]
    simp [noNul]
  · have room : (text ++ [0]).length ≤ data.length := by
      rw [List.length_append, List.length_singleton]
      omega
    rw [overlay_zero_of_le room, List.append_assoc,
      cstr_append_eq_left_iff noNul]
    simp

theorem pathsAgree_str_iff (env later : Env) {item : Characteristic}
    {wire text : List UInt8} (device : Device)
    (isStr : item.userData.declaration.vtype = .str)
    (encodes : Encodes item.userData wire text) :
    PathsAgree env later item wire text device ↔
      CopySuffices item.userData wire text device.store := by
  simp only [Encodes, isStr] at encodes
  obtain ⟨nonempty, noNul, fits, wireIs⟩ := encodes
  have wireFits : wire.length ≤ item.userData.size := by
    rcases wireIs with rfl | rfl
    · omega
    · rw [List.length_append, List.length_singleton]
      omega
  have isByte : item = .loraDatarate → wire.length = 1 := by
    intro same
    subst same
    cases isStr
  have headNe : text.headD 0 ≠ 0 := by
    rw [ne_eq, ← cstr_eq_nil_iff, cstr_eq_self noNul]
    exact nonempty
  have textLength : strlen text = text.length := by
    rw [strlen, cstr_eq_self noNul]
  have short : strlen text < item.userData.size := by
    rw [textLength]
    exact fits
  have setCell :
      ((Effect.assign later item.userData text).apply device).store.cell
          item.userData =
        (strncpyBytes text item.userData.size, text.length) := by
    rw [assign_cell_str later isStr, strlen,
      cstr_append_of_mem (zero_mem_strncpyBytes short),
      cstr_strncpyBytes short, cstr_eq_self noNul]
  have setLength := congrArg Prod.snd setCell
  change Store.length _ _ = text.length at setLength
  have sized := device.store.sized item.userData
  rw [PathsAgree, CopySuffices, Store.SameValue]
  simp only [isStr, varsSet_item later item headNe,
    write_item env item wire wireFits isByte, setCell, setLength,
    cstr_strncpyBytes short, cstr_eq_self noNul]
  simp only [Store.cell, Store.write_data_self, Store.write_length]
  rw [cstr_overlay_iff noNul (by rw [sized]; exact fits) wireIs, and_comm]

theorem pathsAgree_binary_iff (env later : Env) {item : Characteristic}
    {wire text : List UInt8} (device : Device)
    (isBinary : item.userData.declaration.vtype = .binary)
    (encodes : Encodes item.userData wire text) :
    PathsAgree env later item wire text device ↔
      CopySuffices item.userData wire text device.store := by
  simp only [Encodes, isBinary] at encodes
  obtain ⟨full, rfl⟩ := encodes
  have isByte : item = .loraDatarate → wire.length = 1 := by
    intro same
    subst same
    cases isBinary
  have headNe : (ascii "0x" ++ hexText wire).headD 0 ≠ 0 := by
    simp [ascii]
  have written := Store.write_full device.store item.userData wire full
  rw [PathsAgree, CopySuffices, Store.SameValue]
  simp only [isBinary, varsSet_item later item headNe,
    write_item env item wire (Nat.le_of_eq full) isByte, Effect.apply,
    varsSetVar, varsSetBinary_hexText isBinary full, Store.cell, written,
    Store.setLength_data, Store.write_length, Store.setLength_length_self]
  constructor
  · exact fun both => both.2
  · exact fun same => ⟨⟨by rw [same], same⟩, same⟩

theorem pathsAgree_uint8 (env later : Env) {item : Characteristic}
    {wire text : List UInt8} (device : Device)
    (isUint8 : item.userData.declaration.vtype = .uint8)
    (encodes : Encodes item.userData wire text) :
    PathsAgree env later item wire text device := by
  simp only [Encodes, isUint8] at encodes
  obtain ⟨number, small, rfl, rfl⟩ := encodes
  have size := size_of_vtype item.userData
  rw [isUint8] at size
  have parsed :
      leBytes 1 (atoi later.atoiOverflow (decimal number)) =
        [UInt8.ofNat number] := by
    rw [atoi_decimal later.atoiOverflow (by omega)]
    simp only [leBytes]
    congr 2
    omega
  rw [PathsAgree, Store.SameValue]
  simp only [isUint8, varsSet_item later item (decimal_headD_ne_zero number),
    write_item env item [UInt8.ofNat number] (by simp [size])
      (fun _ => rfl), Effect.apply, varsSetVar, parsed]
  simp

theorem pathsAgree_boolean (env later : Env) {item : Characteristic}
    {wire text : List UInt8} (device : Device)
    (isBoolean : item.userData.declaration.vtype = .boolean)
    (encodes : Encodes item.userData wire text) :
    PathsAgree env later item wire text device := by
  simp only [Encodes, isBoolean] at encodes
  obtain ⟨truth, rfl, rfl⟩ := encodes
  have size := size_of_vtype item.userData
  rw [isBoolean] at size
  have headNe : (boolText truth).headD 0 ≠ 0 := by
    cases truth <;> decide
  have parsed :
      (if atoi later.atoiOverflow (boolText truth) ≠ 0 then (1 : UInt8)
        else 0) = if truth then 1 else 0 := by
    cases truth with
    | true =>
        rw [if_pos]
        · rfl
        · rw [boolText, if_pos rfl, atoi, if_pos (by decide)]
          decide
    | false =>
        rw [if_neg]
        · rfl
        · rw [boolText, if_neg (by decide), atoi, if_pos (by decide)]
          decide
  rw [PathsAgree, Store.SameValue]
  simp only [isBoolean, varsSet_item later item headNe,
    write_item env item [if truth then 1 else 0] (by simp [size])
      (fun _ => rfl), Effect.apply, varsSetVar, parsed]
  simp

theorem pathsAgree_iff (env later : Env) {item : Characteristic}
    {wire text : List UInt8} (encodes : Encodes item.userData wire text)
    (device : Device) :
    PathsAgree env later item wire text device ↔
      CopySuffices item.userData wire text device.store := by
  cases kind : item.userData.declaration.vtype with
  | str => exact pathsAgree_str_iff env later device kind encodes
  | binary => exact pathsAgree_binary_iff env later device kind encodes
  | uint8 =>
      have agree := pathsAgree_uint8 env later device kind encodes
      simp only [agree, CopySuffices, kind]
  | boolean =>
      have agree := pathsAgree_boolean env later device kind encodes
      simp only [agree, CopySuffices, kind]
  | _ =>
      rw [Encodes] at encodes
      rw [kind] at encodes
      exact encodes.elim

/-- A call of `vars_set`, or a Bluetooth write inside its variable. -/
def SetsOrWrites (_device : Device) : Call → Prop
  | .varsSet _ _ _ => True
  | .write _ item buf offset => ¬ item.Strays buf offset
  | _ => False

def BinariesFull (store : Store) : Prop :=
  ∀ var, var.declaration.vtype = .binary → store.length var = var.size

theorem initial_binariesFull : BinariesFull Store.initial := by
  intro var isBinary
  cases var <;> first | rfl | cases isBinary

/-- `vars_set` neither loads nor takes the Bluetooth path. -/
theorem setEffect_own (env : Env) (key : List UInt8)
    (value : Option (List UInt8)) :
    match setEffect env key value with
    | .load _ => False
    | .write _ _ _ _ => False
    | _ => True := by
  rw [setEffect]
  cases setgetFindKey key with
  | none => trivial
  | some row =>
      dsimp only
      by_cases refused : (value.getD []).headD 0 = 0 ∨ row.vdir = .read
      · rw [if_pos refused]
        trivial
      · rw [if_neg refused]
        cases row.var with
        | some var => trivial
        | none =>
            cases row.set with
            | none => trivial
            | some setter => cases setter <;> trivial

theorem BinariesFull.step {device next : Device} {call : Call}
    (full : BinariesFull device.store) (allowed : SetsOrWrites device call)
    (taken : Config.step device call = some next) :
    BinariesFull next.store := by
  obtain rfl := Option.some.inj taken
  cases call with
  | varsSet env key value =>
      rw [perform_eq]
      simp only [Call.effect]
      have own := setEffect_own env key value
      cases acts : setEffect env key value with
      | restart => exact initial_binariesFull
      | load other =>
          rw [acts] at own
          exact own.elim
      | write other item buf offset =>
          rw [acts] at own
          exact own.elim
      | assign other target text =>
          intro var isBinary
          by_cases same : var = target
          · subst same
            exact assign_length_binary other isBinary text device
              (full var isBinary)
          · rw [(assign_of_ne other same text device).2]
            exact full var isBinary
      | _ => exact full
  | write env item buf offset =>
      intro var isBinary
      simp only [Call.perform, item.write_length env allowed]
      exact full var isBinary
  | _ => exact allowed.elim

/-- The two paths agree, from any store, exactly when copying the bytes is
enough; and in the stores that setting and writing reach, this is so for
everything but strings. -/
theorem paths_agree_iff (item : Characteristic) (wire text : List UInt8)
    (encodes : Encodes item.userData wire text) (device : Device) :
    (∀ env later, PathsAgree env later item wire text device ↔
      CopySuffices item.userData wire text device.store) ∧
    ∀ nvs calls, Meets step SetsOrWrites ⟨Store.initial, nvs⟩ calls →
      execute step ⟨Store.initial, nvs⟩ calls = some device →
        item.userData.declaration.vtype ≠ .str →
          ∀ env later, PathsAgree env later item wire text device := by
  refine ⟨fun env later => pathsAgree_iff env later encodes device, ?_⟩
  intro nvs calls allowed reached notStr env later
  have full : BinariesFull device.store :=
    execute_invariant (fun device => BinariesFull device.store)
      initial_binariesFull
      (fun _ _ _ full here taken => full.step here taken) allowed reached
  rw [pathsAgree_iff env later encodes device]
  rw [CopySuffices]
  split
  · rename_i isStr
    exact absurd isStr notStr
  · rename_i isBinary
    exact full _ isBinary
  · trivial

def setsAuth : List Call :=
  [.varsSet Env.quiet (ascii "auth") (some (ascii "ABP")),
    .write Env.quiet .loraAppKey (List.replicate 16 0x11) 0]

/-- Then `auth` has the length of `ABC`, and a terminator behind it; and the
key agrees whatever it is. -/
theorem setsAuth_paths_agree :
    ∃ device, execute step factory setsAuth = some device ∧
      PathsAgree Env.quiet Env.quiet .loraAuth (ascii "ABC") (ascii "ABC")
        device ∧
      PathsAgree Env.quiet Env.quiet .loraAppKey (List.replicate 16 0x2b)
        (ascii "0x" ++ hexText (List.replicate 16 0x2b)) device := by
  have allowed : Meets step SetsOrWrites factory setsAuth :=
    ⟨trivial, fun _ _ =>
      ⟨fun ⟨isDatarate, _⟩ => Characteristic.noConfusion isDatarate,
        fun _ _ => trivial⟩⟩
  refine ⟨_, rfl, ?_, ?_⟩
  · exact ((paths_agree_iff .loraAuth (ascii "ABC") (ascii "ABC")
      ⟨by decide, by decide, by decide, Or.inl rfl⟩ _).1
        Env.quiet Env.quiet).mpr ⟨by decide, Or.inr (by decide)⟩
  · exact (paths_agree_iff .loraAppKey (List.replicate 16 0x2b) _
      ⟨by decide, rfl⟩ _).2 _ setsAuth allowed rfl (by decide)
        Env.quiet Env.quiet

/-- Writing `A` over Bluetooth, without a terminator, leaves the string `ABP`
and the length 4. -/
theorem auth_paths_disagree :
    ¬ ∀ (item : Characteristic) (wire text : List UInt8),
      Encodes item.userData wire text →
        ∀ calls device, Meets step SetsOrWrites factory calls →
          execute step factory calls = some device →
            (∀ var, var.declaration.vtype = .str →
              0 ∈ device.store.data var) →
                ∀ env later, PathsAgree env later item wire text device := by
  intro always
  have terminated : ∀ var : Var, var.declaration.vtype = .str →
      (0 : UInt8) ∈ factory.store.data var := by
    intro var isStr
    cases var <;> first | decide | cases isStr
  have encodes :
      Encodes Characteristic.loraAuth.userData (ascii "A") (ascii "A") :=
    ⟨by decide, by decide, by decide, Or.inl rfl⟩
  have agree := always .loraAuth (ascii "A") (ascii "A") encodes [] factory
    trivial rfl terminated Env.quiet Env.quiet
  have suffices' :
      CopySuffices .loraAuth (ascii "A") (ascii "A") factory.store :=
    (pathsAgree_iff Env.quiet Env.quiet encodes factory).mp agree
  have wrongLength :
      factory.store.length .loraAuth ≠ (ascii "A").length := by
    decide
  exact wrongLength suffices'.1

end LoraIot.Config
