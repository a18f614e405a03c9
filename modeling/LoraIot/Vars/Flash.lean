import LoraIot.Vars.Table

/-!
# Saving and loading the variables (`vars.c`)

`flash_save` writes the saved rows of the table into the NVS and `flash_load`
reads them back over the variables.  `Env` collects what the C code leaves to
the platform: which NVS operations fail, which bytes follow a variable in
memory, and what an out-of-range `atoi` returns.  Every function takes the
environment of its own call, so a theorem for all environments holds however
the platform behaves from call to call.
-/

namespace LoraIot.Vars

open LoraIot.CStrings LoraIot.Numerals LoraIot.Tables

/-- The contents of the NVS: a byte string under some of the ids. -/
abbrev Nvs := Nat → Option (List UInt8)

/-- What one call finds outside the program. -/
structure Env where
  /-- `nvs_read` of this id fails. -/
  readFails : Nat → Bool
  /-- This attempt to `nvs_write` this id fails. -/
  writeFails : Nat → Nat → Bool
  /-- The bytes that follow the variable in memory. -/
  beyond : Var → List UInt8
  /-- The effect of storing a byte at this offset from the start of a
  variable, outside its storage. -/
  stray : Var → Nat → UInt8 → Store → Store
  /-- The byte that follows the buffer of a Bluetooth write. -/
  pastBuffer : UInt8
  /-- What `atoi` returns for a number outside `int`. -/
  atoiOverflow : List UInt8 → Int
  /-- The address of a string literal. -/
  address : List UInt8 → Nat

structure Device where
  store : Store
  nvs : Nvs

/-! ## The NVS -/

/-- `-ENOENT`, the result of reading an id without entry. -/
def enoent : Int := -2

/-- `-EIO`, the result of a failing flash operation. -/
def eio : Int := -5

/-- `nvs_read`: the result code and the bytes copied into the buffer. -/
def nvsRead (env : Env) (nvs : Nvs) (id bufSz : Nat) : Int × List UInt8 :=
  if env.readFails id then
    (eio, [])
  else
    match nvs id with
    | none => (enoent, [])
    | some entry => (entry.length, entry.take bufSz)

/-- `nvs_write`: the number of bytes written, zero when the same data is
already stored, negative on failure. -/
def nvsWrite (fails : Bool) (nvs : Nvs) (id : Nat) (bytes : List UInt8) :
    Int × Nvs :=
  if fails then
    (eio, nvs)
  else if nvs id = some bytes then
    (0, nvs)
  else
    (bytes.length, Function.update nvs id (some bytes))

/-- `vars_flash_read`, whose own code only logs. -/
def varsFlashRead (env : Env) (nvs : Nvs) (id bufSz : Nat) :
    Int × List UInt8 :=
  nvsRead env nvs id bufSz

def varsFlashWrite (env : Env) (nvs : Nvs) (id : Nat) (bytes : List UInt8) :
    Int × Nvs :=
  let first := nvsWrite (env.writeFails id 0) nvs id bytes
  if first.1 ≥ 0 then
    (0, first.2)
  else
    let second := nvsWrite (env.writeFails id 1) first.2 id bytes
    -- The second attempt is tested with `if (rc)`, so it only counts when the
    -- data was already stored.
    if second.1 ≠ 0 then (-1, second.2) else (0, second.2)

def Env.memory (env : Env) (store : Store) (var : Var) : List UInt8 :=
  store.data var ++ env.beyond var

/-- The `count` bytes that a read from the start of a variable delivers. -/
def Env.bytes (env : Env) (store : Store) (var : Var) (count : Nat) :
    List UInt8 :=
  (env.memory store var).takeD count 0

@[simp]
theorem Env.bytes_length (env : Env) (store : Store) (var : Var)
    (count : Nat) : (env.bytes store var count).length = count :=
  List.takeD_length ..

theorem Env.bytes_take (env : Env) (store : Store) (var : Var)
    (count : Nat) :
    (env.bytes store var count).take var.size =
      (store.data var).take count := by
  rw [← store.sized var, Env.bytes, Env.memory]
  exact take_takeD_append ..

/-- The byte count that `flash_save` passes to `nvs_write` for a row that
points to this variable. -/
def saveCount (vtype : VType) (store : Store) (var : Var) : Nat :=
  match vtype with
  | .boolean => 1
  | .uint8 => 1
  | .uint16 => 2
  | .uint32 => 4
  | .str => store.length var + 1
  | .binary => store.length var
  | .custom => 0

/-- The buffer size that `flash_load` passes to `nvs_read`. -/
def loadCount (vtype : VType) (var : Var) : Nat :=
  match vtype with
  | .boolean => 1
  | .uint8 => 1
  | .uint16 => 2
  | .uint32 => 4
  | .str => var.size
  | .binary => var.size
  | .custom => 0

/-! ## `flash_load` -/

/-- The switch in the loop of `flash_load`. -/
def flashLoadVar (env : Env) (nvs : Nvs) (id : Nat) (vtype : VType)
    (var : Var) (state : Int × Store) : Int × Store :=
  let read := varsFlashRead env nvs id (loadCount vtype var)
  let loaded := state.2.write var 0 read.2
  match vtype with
  | .boolean => (read.1, loaded)
  | .uint8 => (read.1, loaded)
  | .uint16 => (read.1, loaded)
  | .uint32 => (read.1, loaded)
  | .str =>
      (read.1, loaded.setLength var (strlen (env.memory loaded var)))
  | .binary =>
      (read.1,
        if read.1 ≥ 0 then loaded.setLength var read.1.toNat else loaded)
  | .custom => state

/-- The body of the loop of `flash_load`. -/
def flashLoadRow (env : Env) (nvs : Nvs) (state : Int × Store) (row : Row) :
    Int × Store :=
  match row.savedVar with
  | none => state
  | some var => flashLoadVar env nvs row.saveId.code row.vtype var state

def flashLoad (env : Env) (device : Device) : List UInt8 × Store :=
  let final := setget.foldl (flashLoadRow env device.nvs) (0, device.store)
  (if final.1 < 0 then ascii "-1" else ascii "1", final.2)

/-! ## `flash_save` -/

/-- The switch in the loop of `flash_save`. -/
def flashSaveVar (env : Env) (store : Store) (id : Nat) (vtype : VType)
    (var : Var) (state : Int × Nvs) : Int × Nvs :=
  if vtype = .custom then
    state
  else
    varsFlashWrite env state.2 id
      (env.bytes store var (saveCount vtype store var))

/-- The body of the loop of `flash_save`. -/
def flashSaveRow (env : Env) (store : Store) (state : Int × Nvs) (row : Row) :
    Int × Nvs :=
  match row.savedVar with
  | none => state
  | some var => flashSaveVar env store row.saveId.code row.vtype var state

/-- The loop of `flash_save`, which ends at the first failure. -/
def flashSaveLoop (env : Env) (store : Store) :
    List Row → Int × Nvs → Int × Nvs
  | [], state => state
  | row :: rest, state =>
      if state.1 ≥ 0 then
        flashSaveLoop env store rest (flashSaveRow env store state row)
      else
        state

def flashSave (env : Env) (device : Device) : List UInt8 × Nvs :=
  let final := flashSaveLoop env device.store setget (0, device.nvs)
  (if final.1 < 0 then ascii "-1" else ascii "1", final.2)

def flashClear (_device : Device) : List UInt8 × Nvs :=
  (ascii "1", fun _ => none)

/-- `vars_init`, given the result of `vars_flash_init`. -/
def varsInit (env : Env) (flashInit : Int) (device : Device) : Int × Device :=
  if flashInit < 0 then
    (flashInit, device)
  else
    (0, { device with store := (flashLoad env device).2 })

/-- What `nvs_read` finds under an id, if it succeeds. -/
def Env.entry (env : Env) (nvs : Nvs) (id : Nat) : Option (List UInt8) :=
  if env.readFails id then none else nvs id

theorem varsFlashRead_none {env : Env} {nvs : Nvs} {id : Nat}
    (missing : env.entry nvs id = none) (bufSz : Nat) :
    (varsFlashRead env nvs id bufSz).1 < 0 ∧
      (varsFlashRead env nvs id bufSz).2 = [] := by
  rw [Env.entry] at missing
  rw [varsFlashRead, nvsRead]
  split
  · exact ⟨by decide, rfl⟩
  · rename_i readable
    rw [if_neg readable] at missing
    rw [missing]
    exact ⟨by simp [enoent], rfl⟩

theorem varsFlashRead_some {env : Env} {nvs : Nvs} {id : Nat}
    {entry : List UInt8} (found : env.entry nvs id = some entry)
    (bufSz : Nat) :
    varsFlashRead env nvs id bufSz =
      ((entry.length : Int), entry.take bufSz) := by
  rw [Env.entry] at found
  split at found
  · cases found
  · rename_i readable
    simp [varsFlashRead, nvsRead, readable, found]

def loadedData (vtype : VType) (var : Var) (entry : Option (List UInt8))
    (data : List UInt8) : List UInt8 :=
  match entry with
  | none => data
  | some bytes => overlay data 0 (bytes.take (loadCount vtype var))

def loadedLength (env : Env) (vtype : VType) (var : Var)
    (entry : Option (List UInt8)) (data : List UInt8) (length : Nat) : Nat :=
  match vtype with
  | .str => strlen (loadedData vtype var entry data ++ env.beyond var)
  | .binary => (entry.map List.length).getD length
  | _ => length

theorem flashLoadVar_cell (env : Env) (nvs : Nvs) (id : Nat)
    (vtype : VType) (var : Var) (state : Int × Store) :
    (flashLoadVar env nvs id vtype var state).2.cell var =
      (loadedData vtype var (env.entry nvs id) (state.2.data var),
        loadedLength env vtype var (env.entry nvs id) (state.2.data var)
          (state.2.length var)) := by
  cases found : env.entry nvs id with
  | none =>
      obtain ⟨negative, nothing⟩ :=
        varsFlashRead_none found (loadCount vtype var)
      cases vtype with
      | binary =>
          simp [flashLoadVar, Store.cell, loadedData, loadedLength, nothing,
            not_le.mpr negative]
      | _ =>
          simp [flashLoadVar, Store.cell, loadedData, loadedLength, nothing,
            Env.memory]
  | some entry =>
      have read := varsFlashRead_some found (loadCount vtype var)
      cases vtype with
      | custom =>
          simp [flashLoadVar, Store.cell, loadedData, loadedLength,
            loadCount]
      | _ =>
          simp [flashLoadVar, Store.cell, loadedData, loadedLength, read,
            Env.memory]

theorem flashLoadVar_cell_of_ne (env : Env) (nvs : Nvs) (id : Nat)
    (vtype : VType) {var other : Var} (different : other ≠ var)
    (state : Int × Store) :
    (flashLoadVar env nvs id vtype var state).2.cell other =
      state.2.cell other := by
  cases vtype with
  | binary =>
      simp only [flashLoadVar]
      split
      · simp [Store.cell, different]
      · simp [Store.cell, different]
  | _ => simp [flashLoadVar, Store.cell, different]

theorem flashLoadRow_local (env : Env) (nvs : Nvs) :
    Local (fun state : Int × Store => state.2.cell) (flashLoadRow env nvs)
      Row.savedVar
      (fun row cell =>
        match row.savedVar with
        | none => cell
        | some var =>
            (loadedData row.vtype var (env.entry nvs row.saveId.code) cell.1,
              loadedLength env row.vtype var
                (env.entry nvs row.saveId.code) cell.1 cell.2)) where
  hit state row var targets := by
    simp only [flashLoadRow, targets]
    exact flashLoadVar_cell env nvs _ row.vtype var state
  miss state row var elsewhere := by
    cases targets : row.savedVar with
    | none => simp only [flashLoadRow, targets]
    | some other =>
        simp only [flashLoadRow, targets]
        apply flashLoadVar_cell_of_ne
        intro same
        subst same
        exact elsewhere targets

/-- What `flash_load` does to the variable of a saved row. -/
theorem flashLoad_cell (env : Env) (device : Device) {row : Row}
    (listed : row ∈ setget) {var : Var} (targets : row.savedVar = some var) :
    (flashLoad env device).2.cell var =
      (loadedData row.vtype var (env.entry device.nvs row.saveId.code)
          (device.store.data var),
        loadedLength env row.vtype var
          (env.entry device.nvs row.saveId.code) (device.store.data var)
          (device.store.length var)) := by
  have changed := (flashLoadRow_local env device.nvs).foldl_hit
    setget_savedVars_nodup listed targets (0, device.store)
  simp only [targets] at changed
  exact changed

theorem flashLoad_cell_of_unsaved (env : Env) (device : Device) {var : Var}
    (unsaved : ∀ row ∈ setget, row.savedVar ≠ some var) :
    (flashLoad env device).2.cell var = device.store.cell var :=
  (flashLoadRow_local env device.nvs).foldl_miss unsaved (0, device.store)

/-- Loading leaves a variable alone unless a saved row points to it. -/
theorem flashLoad_saved_or_kept (env : Env) (device : Device) (var : Var) :
    (∃ row ∈ setget, row.savedVar = some var) ∨
      (flashLoad env device).2.cell var = device.store.cell var :=
  (saved_or_unsaved var).imp_right fun unsaved =>
    flashLoad_cell_of_unsaved env device unsaved

/-! ## What saving does -/

theorem nvsWrite_snd_self {nvs : Nvs} {id : Nat} {bytes : List UInt8} :
    (nvsWrite false nvs id bytes).2 = Function.update nvs id (some bytes) := by
  rw [nvsWrite]
  split
  · rename_i impossible
    cases impossible
  · split
    · rename_i stored
      exact (Function.update_eq_self_iff.mpr stored.symm).symm
    · rfl

theorem nvsWrite_fst_nonneg {nvs : Nvs} {id : Nat} {bytes : List UInt8} :
    0 ≤ (nvsWrite false nvs id bytes).1 := by
  rw [nvsWrite]
  split
  · rename_i impossible
    cases impossible
  · split
    · exact Int.le_refl 0
    · exact Int.natCast_nonneg bytes.length

/-- Whether or not it fails, one attempt leaves the NVS alone or stores the
bytes. -/
theorem nvsWrite_snd (fails : Bool) (nvs : Nvs) (id : Nat)
    (bytes : List UInt8) :
    (nvsWrite fails nvs id bytes).2 = nvs ∨
      (nvsWrite fails nvs id bytes).2 =
        Function.update nvs id (some bytes) := by
  cases fails with
  | true => exact Or.inl rfl
  | false => exact Or.inr nvsWrite_snd_self

theorem varsFlashWrite_snd (env : Env) (nvs : Nvs) (id : Nat)
    (bytes : List UInt8) :
    (varsFlashWrite env nvs id bytes).2 = nvs ∨
      (varsFlashWrite env nvs id bytes).2 =
        Function.update nvs id (some bytes) := by
  rw [varsFlashWrite]
  have first := nvsWrite_snd (env.writeFails id 0) nvs id bytes
  have second := nvsWrite_snd (env.writeFails id 1)
    (nvsWrite (env.writeFails id 0) nvs id bytes).2 id bytes
  dsimp only
  split
  · exact first
  · have result :
        (nvsWrite (env.writeFails id 1)
            (nvsWrite (env.writeFails id 0) nvs id bytes).2 id bytes).2 =
          nvs ∨
        (nvsWrite (env.writeFails id 1)
            (nvsWrite (env.writeFails id 0) nvs id bytes).2 id bytes).2 =
          Function.update nvs id (some bytes) := by
      rcases second with unchanged | stored
      · rw [unchanged]
        exact first
      · rcases first with kept | written
        · exact Or.inr (by rw [stored, kept])
        · exact Or.inr (by rw [stored, written, Function.update_idem])
    split
    · exact result
    · exact result

theorem varsFlashWrite_of_success {env : Env} {id : Nat}
    (succeeds : env.writeFails id 0 = false) (nvs : Nvs)
    (bytes : List UInt8) :
    varsFlashWrite env nvs id bytes =
      (0, Function.update nvs id (some bytes)) := by
  rw [varsFlashWrite]
  dsimp only
  rw [succeeds, if_pos nvsWrite_fst_nonneg, nvsWrite_snd_self]

theorem flashSaveVar_snd (env : Env) (store : Store) (id : Nat)
    (vtype : VType) (var : Var) (state : Int × Nvs) :
    (flashSaveVar env store id vtype var state).2 = state.2 ∨
      (flashSaveVar env store id vtype var state).2 =
        Function.update state.2 id
          (some (env.bytes store var (saveCount vtype store var))) := by
  rw [flashSaveVar]
  split
  · exact Or.inl rfl
  · exact varsFlashWrite_snd env state.2 id _

/-- An entry after `flash_save` is the one before, or the bytes of the row
that is saved under this id. -/
theorem flashSave_entry (env : Env) (device : Device) (id : Nat) :
    (flashSave env device).2 id = device.nvs id ∨
      ∃ row ∈ setget, ∃ var, row.savedVar = some var ∧
        row.saveId.code = id ∧
        (flashSave env device).2 id =
          some (env.bytes device.store var
            (saveCount row.vtype device.store var)) := by
  have loop : ∀ (rows : List Row) (state : Int × Nvs),
      (∀ row ∈ rows, row ∈ setget) →
      (flashSaveLoop env device.store rows state).2 id = state.2 id ∨
        ∃ row ∈ setget, ∃ var, row.savedVar = some var ∧
          row.saveId.code = id ∧
          (flashSaveLoop env device.store rows state).2 id =
            some (env.bytes device.store var
              (saveCount row.vtype device.store var)) := by
    intro rows
    induction rows with
    | nil => exact fun state _ => Or.inl rfl
    | cons row rest inductionHypothesis =>
        intro state listed
        rw [flashSaveLoop]
        split
        · have later := inductionHypothesis
            (flashSaveRow env device.store state row)
            fun other member => listed other (List.mem_cons_of_mem row member)
          rcases later with unchanged | written
          · rw [unchanged]
            cases targets : row.savedVar with
            | none => exact Or.inl (by simp only [flashSaveRow, targets])
            | some var =>
                simp only [flashSaveRow, targets]
                rcases flashSaveVar_snd env device.store row.saveId.code
                    row.vtype var state with kept | stored
                · exact Or.inl (by rw [kept])
                · rw [stored]
                  by_cases same : id = row.saveId.code
                  · subst same
                    exact Or.inr ⟨row, listed row List.mem_cons_self, var,
                      targets, rfl, Function.update_self ..⟩
                  · exact Or.inl (Function.update_of_ne same ..)
          · exact Or.inr written
        · exact Or.inl rfl
  exact loop setget (0, device.nvs) fun _ member => member

section Success

variable {env : Env} (succeeds : ∀ id, env.writeFails id 0 = false)

include succeeds

/-- When the writes succeed, the switch stores the bytes of its variable and
keeps the result code at zero. -/
theorem flashSaveVar_of_success (store : Store) (id : Nat) (vtype : VType)
    (var : Var) (nvs : Nvs) :
    flashSaveVar env store id vtype var (0, nvs) =
      (0, if vtype = .custom then
          nvs
        else
          Function.update nvs id
            (some (env.bytes store var (saveCount vtype store var)))) := by
  rw [flashSaveVar]
  split
  · rfl
  · exact varsFlashWrite_of_success (succeeds id) nvs _

theorem flashSaveRow_of_success (store : Store) (nvs : Nvs) (row : Row) :
    flashSaveRow env store (0, nvs) row =
      (0, (flashSaveRow env store (0, nvs) row).2) := by
  cases points : row.savedVar with
  | none => simp only [flashSaveRow, points]
  | some var =>
      simp only [flashSaveRow, points, flashSaveVar_of_success succeeds]

theorem flashSaveLoop_of_success (store : Store) (rows : List Row)
    (nvs : Nvs) :
    flashSaveLoop env store rows (0, nvs) =
      (0, rows.foldl
        (fun nvs row => (flashSaveRow env store (0, nvs) row).2) nvs) := by
  induction rows generalizing nvs with
  | nil => rfl
  | cons row rest inductionHypothesis =>
      rw [flashSaveLoop, if_pos (Int.le_refl 0),
        flashSaveRow_of_success succeeds, inductionHypothesis,
        List.foldl_cons]

theorem flashSaveRow_local (store : Store) :
    Local (fun nvs : Nvs => nvs)
      (fun nvs row => (flashSaveRow env store (0, nvs) row).2) Row.savedId
      (fun row entry =>
        match row.savedVar with
        | none => entry
        | some var =>
            if row.vtype = .custom then
              entry
            else
              some (env.bytes store var
                (saveCount row.vtype store var))) where
  hit nvs row id saved := by
    cases points : row.savedVar with
    | none => simp [Row.savedId, points] at saved
    | some var =>
        obtain rfl : row.saveId.code = id :=
          Option.some.inj ((savedId_of_savedVar points).symm.trans saved)
        simp only [flashSaveRow, points, flashSaveVar_of_success succeeds]
        split
        · rfl
        · exact Function.update_self ..
  miss nvs row id elsewhere := by
    cases points : row.savedVar with
    | none => simp only [flashSaveRow, points]
    | some var =>
        have different : id ≠ row.saveId.code := by
          intro same
          exact elsewhere (same ▸ savedId_of_savedVar points)
        simp only [flashSaveRow, points, flashSaveVar_of_success succeeds]
        split
        · rfl
        · exact Function.update_of_ne different ..

/-- A `flash_save` whose writes succeed stores the bytes of every saved
row. -/
theorem flashSave_of_success (device : Device) {row : Row}
    (listed : row ∈ setget) {var : Var}
    (targets : row.savedVar = some var) :
    (flashSave env device).2 row.saveId.code =
      some (env.bytes device.store var
        (saveCount row.vtype device.store var)) := by
  have saved := savedId_of_savedVar targets
  have notCustom : row.vtype ≠ .custom := by
    rw [savedVar_vtype listed targets]
    exact var.declaration.vtype_ne_custom
  have written := (flashSaveRow_local succeeds device.store).foldl_hit
    setget_savedIds_nodup listed saved device.nvs
  rw [flashSave, flashSaveLoop_of_success succeeds]
  simpa only [targets, if_neg notCustom] using written

end Success

end LoraIot.Vars
