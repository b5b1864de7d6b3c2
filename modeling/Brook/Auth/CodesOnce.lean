import Brook.Auth.SecondFactor
import Brook.Transition.Run

namespace Brook.Auth.SecondFactor

open Transition

/-! A second factor works once: what the history of accepted factors looks like
in every run. -/

/-- Of two accepted steps of one secret, the later is the higher. -/
def StepsRise (later earlier : Entry) : Prop :=
  ∀ secret step clock step' clock',
    later = .accepted (.step secret step clock) →
    earlier = .accepted (.step secret step' clock') → step' < step

/-- No recovery code is accepted twice. -/
def CodesDiffer (later earlier : Entry) : Prop :=
  ∀ code, later = .accepted (.code code) → earlier ≠ .accepted (.code code)

/-- No recovery code is accepted after it was replaced. -/
def CodesCurrent (later earlier : Entry) : Prop :=
  ∀ code old, later = .accepted (.code code) → earlier = .replaced old →
    code ∉ old

/-- The accepted step is within one step of the clock. -/
def Near (entry : Entry) : Prop :=
  ∀ secret step clock, entry = .accepted (.step secret step clock) →
    clock - 1 ≤ step ∧ step ≤ clock + 1

structure WorksOnce (log : List Entry) : Prop where
  rise : log.Pairwise StepsRise
  differ : log.Pairwise CodesDiffer
  current : log.Pairwise CodesCurrent
  near : ∀ entry ∈ log, Near entry

/-- What `verify_second_factor` promises of the factor that it accepts. -/
def Accepted.Valid (db : Db) (row : Totp) : Accepted → Prop
  | .step secret accepted clock =>
      secret = row.secret ∧ (clock - 1 ≤ accepted ∧ accepted ≤ clock + 1) ∧
        ∀ last, row.lastUsedStep = some last → last < accepted
  | .code accepted =>
      ∃ stored ∈ db.codes, stored.code = accepted ∧ stored.used = false

/-- A request that has locked the user's row holds the lock, and what it has
read since is what is stored. -/
def Stage.Holds (db : Db) (tx : TxId) : Stage → Prop
  | .begun => True
  | .locked | .enrolling => db.holder = some tx
  | .loaded row => db.holder = some tx ∧ db.totp = some row
  | .verified row factor | .closing row factor =>
      db.holder = some tx ∧ db.totp = some row ∧ factor.Valid db row

/-- The history against the rows that guard it. -/
structure Guarded (totp : Option Totp) (codes : List CodeRow)
    (enrolled : List Secret) (generated : List RecoveryCode)
    (log : List Entry) : Prop where
  once : WorksOnce log
  lastUsed : ∀ row step clock, totp = some row →
    .accepted (.step row.secret step clock) ∈ log →
    ∃ last, row.lastUsedStep = some last ∧ step ≤ last
  enrolledRow : ∀ row, totp = some row → row.secret ∈ enrolled
  enrolledLog : ∀ secret step clock,
    .accepted (.step secret step clock) ∈ log → secret ∈ enrolled
  generatedRow : ∀ stored ∈ codes, stored.code ∈ generated
  generatedLog : ∀ code, .accepted (.code code) ∈ log → code ∈ generated
  generatedOld : ∀ old, .replaced old ∈ log → ∀ code ∈ old, code ∈ generated
  unused : ∀ stored ∈ codes, stored.used = false →
    .accepted (.code stored.code) ∉ log
  stored : ∀ stored ∈ codes, ∀ old, .replaced old ∈ log → stored.code ∉ old

def Db.Guarded (db : Db) : Prop :=
  SecondFactor.Guarded db.totp db.codes db.enrolled db.generated db.log

structure Sound (db : Db) : Prop where
  guarded : db.Guarded
  requests : ∀ tx request, db.requests.get? tx = some request →
    request.stage.Holds db tx

section

variable {totp : Option Totp} {codes : List CodeRow} {enrolled : List Secret}
variable {generated : List RecoveryCode} {log : List Entry}

/-- An accepted step that is past the last one of its secret. -/
theorem Guarded.step (guarded : Guarded totp codes enrolled generated log)
    {row : Totp} (here : totp = some row) {step clock : Int}
    (near : clock - 1 ≤ step ∧ step ≤ clock + 1)
    (after : ∀ last, row.lastUsedStep = some last → last < step) :
    Guarded (some { row with lastUsedStep := some step }) codes enrolled
      generated (.accepted (.step row.secret step clock) :: log) where
  once := by
    obtain ⟨rise, differ, current, nears⟩ := guarded.once
    refine ⟨List.pairwise_cons.mpr ⟨?_, rise⟩,
      List.pairwise_cons.mpr ⟨?_, differ⟩,
      List.pairwise_cons.mpr ⟨?_, current⟩, ?_⟩
    · rintro _ mem _ _ _ step' clock' ⟨⟩ rfl
      obtain ⟨last, used, below⟩ := guarded.lastUsed row step' clock' here mem
      have above := after last used
      omega
    · rintro _ _ _ ⟨⟩
    · rintro _ _ _ _ ⟨⟩
    · intro entry mem
      rcases List.mem_cons.mp mem with rfl | old
      · rintro _ _ _ ⟨⟩
        exact near
      · exact nears entry old
  lastUsed := by
    rintro _ step' clock' ⟨⟩ mem
    refine ⟨step, rfl, ?_⟩
    rcases List.mem_cons.mp mem with same | old
    · cases same
      exact Int.le_refl _
    · obtain ⟨last, used, below⟩ := guarded.lastUsed row step' clock' here old
      have above := after last used
      omega
  enrolledRow := by
    rintro _ ⟨⟩
    exact guarded.enrolledRow row here
  enrolledLog := by
    intro secret step' clock' mem
    rcases List.mem_cons.mp mem with same | old
    · cases same
      exact guarded.enrolledRow row here
    · exact guarded.enrolledLog secret step' clock' old
  generatedRow := guarded.generatedRow
  generatedLog := by
    intro code mem
    rcases List.mem_cons.mp mem with same | old
    · cases same
    · exact guarded.generatedLog code old
  generatedOld := by
    intro earlier mem
    rcases List.mem_cons.mp mem with same | old
    · cases same
    · exact guarded.generatedOld earlier old
  unused := by
    intro stored mem free used
    rcases List.mem_cons.mp used with same | old
    · cases same
    · exact guarded.unused stored mem free old
  stored := by
    intro stored mem earlier replaced
    rcases List.mem_cons.mp replaced with same | old
    · cases same
    · exact guarded.stored stored mem earlier old

theorem markUsed_origin {code : RecoveryCode} {stored : CodeRow}
    (mem : stored ∈ markUsed codes code) :
    ∃ old ∈ codes, old.code = stored.code ∧
      (stored.used = false → old.used = false ∧ stored.code ≠ code) := by
  obtain ⟨old, found, rfl⟩ := List.mem_map.mp mem
  refine ⟨old, found, ?_⟩
  by_cases same : old.code = code <;> simp [same]

theorem Guarded.code (guarded : Guarded totp codes enrolled generated log)
    {stored : CodeRow} (here : stored ∈ codes) (free : stored.used = false) :
    Guarded totp (markUsed codes stored.code) enrolled generated
      (.accepted (.code stored.code) :: log) where
  once := by
    obtain ⟨rise, differ, current, nears⟩ := guarded.once
    refine ⟨List.pairwise_cons.mpr ⟨?_, rise⟩,
      List.pairwise_cons.mpr ⟨?_, differ⟩,
      List.pairwise_cons.mpr ⟨?_, current⟩, ?_⟩
    · rintro _ _ _ _ _ _ _ ⟨⟩
    · rintro _ mem _ ⟨⟩ rfl
      exact guarded.unused stored here free mem
    · rintro _ mem _ old ⟨⟩ rfl
      exact guarded.stored stored here old mem
    · intro entry mem
      rcases List.mem_cons.mp mem with rfl | old
      · rintro _ _ _ ⟨⟩
      · exact nears entry old
  lastUsed := by
    intro row step clock found mem
    rcases List.mem_cons.mp mem with same | old
    · cases same
    · exact guarded.lastUsed row step clock found old
  enrolledRow := guarded.enrolledRow
  enrolledLog := by
    intro secret step clock mem
    rcases List.mem_cons.mp mem with same | old
    · cases same
    · exact guarded.enrolledLog secret step clock old
  generatedRow := by
    intro marked mem
    obtain ⟨old, found, same, -⟩ := markUsed_origin mem
    rw [← same]
    exact guarded.generatedRow old found
  generatedLog := by
    intro code mem
    rcases List.mem_cons.mp mem with same | old
    · cases same
      exact guarded.generatedRow stored here
    · exact guarded.generatedLog code old
  generatedOld := by
    intro earlier mem
    rcases List.mem_cons.mp mem with same | old
    · cases same
    · exact guarded.generatedOld earlier old
  unused := by
    intro marked mem unused used
    obtain ⟨old, found, same, facts⟩ := markUsed_origin mem
    obtain ⟨oldFree, different⟩ := facts unused
    rcases List.mem_cons.mp used with equal | before
    · simp only [Entry.accepted.injEq, Accepted.code.injEq] at equal
      exact different equal
    · rw [← same] at before
      exact guarded.unused old found oldFree before
  stored := by
    intro marked mem earlier replaced
    obtain ⟨old, found, same, -⟩ := markUsed_origin mem
    rw [← same]
    rcases List.mem_cons.mp replaced with equal | before
    · cases equal
    · exact guarded.stored old found earlier before

/-- The codes there were are replaced by new ones, or by none. -/
theorem Guarded.replace (guarded : Guarded totp codes enrolled generated log)
    {fresh : List RecoveryCode} (new : ∀ code ∈ fresh, code ∉ generated) :
    Guarded totp (fresh.map fun code => ⟨code, false⟩) enrolled
      (fresh ++ generated) (.replaced generated :: log) where
  once := by
    obtain ⟨rise, differ, current, nears⟩ := guarded.once
    refine ⟨List.pairwise_cons.mpr ⟨?_, rise⟩,
      List.pairwise_cons.mpr ⟨?_, differ⟩,
      List.pairwise_cons.mpr ⟨?_, current⟩, ?_⟩
    · rintro _ _ _ _ _ _ _ ⟨⟩
    · rintro _ _ _ ⟨⟩
    · rintro _ _ _ _ ⟨⟩
    · intro entry mem
      rcases List.mem_cons.mp mem with rfl | old
      · rintro _ _ _ ⟨⟩
      · exact nears entry old
  lastUsed := by
    intro row step clock found mem
    rcases List.mem_cons.mp mem with same | old
    · cases same
    · exact guarded.lastUsed row step clock found old
  enrolledRow := guarded.enrolledRow
  enrolledLog := by
    intro secret step clock mem
    rcases List.mem_cons.mp mem with same | old
    · cases same
    · exact guarded.enrolledLog secret step clock old
  generatedRow := by
    intro stored mem
    obtain ⟨code, found, rfl⟩ := List.mem_map.mp mem
    exact List.mem_append_left _ found
  generatedLog := by
    intro code mem
    rcases List.mem_cons.mp mem with same | old
    · cases same
    · exact List.mem_append_right _ (guarded.generatedLog code old)
  generatedOld := by
    intro earlier mem code old
    rcases List.mem_cons.mp mem with same | before
    · cases same
      exact List.mem_append_right _ old
    · exact List.mem_append_right _ (guarded.generatedOld earlier before code old)
  unused := by
    intro stored mem _ used
    obtain ⟨code, found, rfl⟩ := List.mem_map.mp mem
    rcases List.mem_cons.mp used with same | old
    · cases same
    · exact new code found (guarded.generatedLog code old)
  stored := by
    intro stored mem earlier replaced old
    obtain ⟨code, found, rfl⟩ := List.mem_map.mp mem
    rcases List.mem_cons.mp replaced with same | before
    · cases same
      exact new code found old
    · exact new code found (guarded.generatedOld earlier before code old)

end

section

variable {db next : Db} {tx : TxId} {route : Route} {std : Stdlib}

theorem Stage.Holds.of_same {stage : Stage} (holds : stage.Holds db tx)
    (held : db.holder = some tx → next.holder = some tx)
    (totp : next.totp = db.totp) (codes : next.codes = db.codes) :
    stage.Holds next tx := by
  have valid : ∀ {row : Totp} {factor : Accepted}, factor.Valid db row →
      factor.Valid next row := by
    intro row factor valid
    cases factor with
    | step secret accepted clock => exact valid
    | code code =>
        rw [Accepted.Valid, codes]
        exact valid
  cases stage with
  | begun => trivial
  | locked => exact held holds
  | enrolling => exact held holds
  | loaded row => exact ⟨held holds.1, totp.trans holds.2⟩
  | verified row factor =>
      exact ⟨held holds.1, totp.trans holds.2.1, valid holds.2.2⟩
  | closing row factor =>
      exact ⟨held holds.1, totp.trans holds.2.1, valid holds.2.2⟩

theorem Sound.setStage (sound : Sound db) {stage : Stage}
    (holds : stage.Holds db tx) : Sound (db.setStage tx route stage) where
  guarded := sound.guarded
  requests := by
    intro other request stored
    by_cases same : other = tx
    · subst same
      rw [Db.setStage, Table.get?_put_self, Option.some.injEq] at stored
      subst stored
      exact holds.of_same id rfl rfl
    · rw [Db.setStage, Table.get?_put_ne _ _ same] at stored
      exact (sound.requests other request stored).of_same id rfl rfl

theorem Sound.finish (sound : Sound db) (tx : TxId) : Sound (db.finish tx) where
  guarded := sound.guarded
  requests := by
    intro other request stored
    simp only [Db.finish, Table.get?_filter, Option.filter_eq_some_iff,
      decide_eq_true_eq] at stored
    apply (sound.requests other request stored.1).of_same
    · intro held
      simp [Db.finish, held, stored.2]
    · rfl
    · rfl

/-- A holder that commits ends alone: the other requests wait for its lock. -/
theorem Sound.commit (sound : Sound db) (held : db.holder = some tx)
    {mid : Db} (requests : mid.requests = db.requests)
    (guarded : mid.Guarded) : Sound (mid.finish tx) where
  guarded := guarded
  requests := by
    intro other request stored
    simp only [Db.finish, Table.get?_filter, Option.filter_eq_some_iff,
      decide_eq_true_eq, requests] at stored
    have apart : db.holder ≠ some other := by
      rw [held]
      simpa using Ne.symm stored.2
    obtain ⟨route, stage⟩ := request
    have holds : stage.Holds db other := sound.requests other _ stored.1
    cases stage with
    | begun => trivial
    | locked => exact (apart holds).elim
    | enrolling => exact (apart holds).elim
    | loaded row => exact (apart holds.1).elim
    | verified row factor => exact (apart holds.1).elim
    | closing row factor => exact (apart holds.1).elim

theorem lockStep_sound (sound : Sound db)
    (taken : lockStep db tx route = some next) : Sound next := by
  unfold lockStep at taken
  split at taken
  · cases taken
  · rename_i free
    split at taken
    · cases taken
      have locked : Sound { db with holder := some tx } :=
        { guarded := sound.guarded
          requests := by
            intro other request stored
            apply (sound.requests other request stored).of_same
            · intro held
              simp [free] at held
            · rfl
            · rfl }
      have holds : Stage.locked.Holds { db with holder := some tx } tx := rfl
      exact locked.setStage holds
    · cases taken
      exact sound.finish tx

theorem loadStep_sound (sound : Sound db) (held : db.holder = some tx)
    (now : Time) : Sound (loadStep db tx route now) := by
  have ended := sound.finish tx
  have active : ∀ {row}, db.activeTotp = some row → db.totp = some row :=
    fun found => (Option.filter_eq_some_iff.mp found).1
  cases route with
  | totpLogin pending code recoveryCode =>
      simp only [loadStep]
      split
      · exact ended
      · rename_i row found
        split
        · exact ended
        · split
          · exact ended
          · exact sound.setStage ⟨held, active found⟩
  | enroll password =>
      simp only [loadStep]
      split
      · exact ended
      · exact sound.setStage held
  | activate code =>
      simp only [loadStep]
      split
      · exact ended
      · rename_i row found
        split
        · exact ended
        · exact ended
        · split
          · exact ended
          · exact sound.setStage ⟨held, found⟩
  | disable password code recoveryCode =>
      simp only [loadStep]
      split
      · exact ended
      · rename_i row found
        exact sound.setStage ⟨held, active found⟩
  | regenerateRecoveryCodes password code recoveryCode =>
      simp only [loadStep]
      split
      · exact ended
      · rename_i row found
        exact sound.setStage ⟨held, active found⟩

theorem verifySecondFactor_valid {row : Totp} {code recoveryCode : Option Text}
    {limited decrypts : Bool} {now : Int} {factor : Accepted}
    (accepted : verifySecondFactor std db row code recoveryCode limited decrypts
      now = some factor) : factor.Valid db row := by
  unfold verifySecondFactor at accepted
  split at accepted
  · cases accepted
  · split at accepted
    · split at accepted
      · split at accepted
        · rename_i matched
          cases accepted
          obtain ⟨near, after⟩ := matchStep_accepts matched
          exact ⟨rfl, near, after⟩
        · cases accepted
      · cases accepted
    · split at accepted
      · cases accepted
      · split at accepted
        · cases accepted
        · rename_i stored found
          split at accepted
          · cases accepted
            have unused := List.find?_some found
            simp only [Bool.decide_and, Bool.and_eq_true,
              decide_eq_true_eq] at unused
            exact ⟨stored, List.mem_of_find?_eq_some found, rfl, unused.2⟩
          · cases accepted

theorem verifyStep_sound (sound : Sound db) {row : Totp}
    (holds : db.holder = some tx ∧ db.totp = some row) (limited decrypts : Bool)
    (now : Int) :
    Sound (verifyStep std db tx route row limited decrypts now) := by
  unfold verifyStep
  dsimp only
  split
  · exact sound.finish tx
  · rename_i accepted
    exact sound.setStage ⟨holds.1, holds.2, verifySecondFactor_valid accepted⟩

theorem claimStep_sound (sound : Sound db) {pending : PendingToken} {row : Totp}
    {factor : Accepted} (holds : (Stage.verified row factor).Holds db tx)
    (now : Time) : Sound (claimStep db tx route pending row factor now) := by
  unfold claimStep
  split
  · exact sound.finish tx
  · rename_i usedJti claimed
    have same : Sound { db with usedJti } :=
      { guarded := sound.guarded
        requests := fun other request stored =>
          (sound.requests other request stored).of_same id rfl rfl }
    apply same.setStage
    exact holds.of_same id rfl rfl

/-- The accepted factor is recorded in the row that guards it. -/
theorem record_guarded (guarded : db.Guarded) {row : Totp} {factor : Accepted}
    (here : db.totp = some row) (valid : factor.Valid db row) :
    (db.record row factor).Guarded := by
  cases factor with
  | step secret accepted clock =>
      obtain ⟨rfl, near, after⟩ := valid
      exact guarded.step here near after
  | code code =>
      obtain ⟨stored, mem, rfl, free⟩ := valid
      exact guarded.code mem free

theorem record_requests (db : Db) (row : Totp) (factor : Accepted) :
    (db.record row factor).requests = db.requests := by
  cases factor <;> rfl

theorem record_generated (db : Db) (row : Totp) (factor : Accepted) :
    (db.record row factor).generated = db.generated := by
  cases factor <;> rfl

/-- Columns that guard nothing may change. -/
theorem Db.Guarded.map_totp (guarded : db.Guarded) {change : Totp → Totp}
    (same : ∀ row, (change row).secret = row.secret ∧
      (change row).lastUsedStep = row.lastUsedStep) :
    SecondFactor.Guarded (db.totp.map change) db.codes db.enrolled db.generated
      db.log where
  once := guarded.once
  lastUsed := by
    intro row step clock found mem
    obtain ⟨old, here, rfl⟩ := Option.map_eq_some_iff.mp found
    rw [(same old).1] at mem
    rw [(same old).2]
    exact guarded.lastUsed old step clock here mem
  enrolledRow := by
    intro row found
    obtain ⟨old, here, rfl⟩ := Option.map_eq_some_iff.mp found
    rw [(same old).1]
    exact guarded.enrolledRow old here
  enrolledLog := guarded.enrolledLog
  generatedRow := guarded.generatedRow
  generatedLog := guarded.generatedLog
  generatedOld := guarded.generatedOld
  unused := guarded.unused
  stored := guarded.stored

theorem enroll_guarded (guarded : db.Guarded) {secret : Secret}
    (fresh : secret ∉ db.enrolled) (expiresAt : Option Time) :
    SecondFactor.Guarded (some ⟨secret, none, expiresAt, none⟩) db.codes
      (secret :: db.enrolled) db.generated db.log where
  once := guarded.once
  lastUsed := by
    rintro _ step clock ⟨⟩ mem
    exact (fresh (guarded.enrolledLog secret step clock mem)).elim
  enrolledRow := by
    rintro _ ⟨⟩
    exact List.mem_cons_self
  enrolledLog := by
    intro other step clock mem
    exact List.mem_cons_of_mem _ (guarded.enrolledLog other step clock mem)
  generatedRow := guarded.generatedRow
  generatedLog := guarded.generatedLog
  generatedOld := guarded.generatedOld
  unused := guarded.unused
  stored := guarded.stored

theorem removeTotp_guarded (guarded : db.Guarded) : db.removeTotp.Guarded := by
  have none : ∀ code ∈ ([] : List RecoveryCode), code ∉ db.generated := by simp
  have replaced := guarded.replace none
  exact
    { once := replaced.once
      lastUsed := by rintro _ _ _ ⟨⟩
      enrolledRow := by rintro _ ⟨⟩
      enrolledLog := replaced.enrolledLog
      generatedRow := replaced.generatedRow
      generatedLog := replaced.generatedLog
      generatedOld := replaced.generatedOld
      unused := replaced.unused
      stored := replaced.stored }

theorem mem_freshCodes {codes : List RecoveryCode}
    (fresh : db.freshCodes codes = true) : ∀ code ∈ codes, code ∉ db.generated := by
  simp only [Db.freshCodes, Bool.and_eq_true, List.all_eq_true,
    decide_eq_true_eq] at fresh
  exact fresh.2

theorem commitStep_sound (sound : Sound db) {stage : Stage}
    (holds : stage.Holds db tx) {now : Time} {secret : Secret}
    {codes : List RecoveryCode}
    (taken : commitStep db tx ⟨route, stage⟩ now secret codes = some next) :
    Sound next := by
  simp only [commitStep] at taken
  split at taken
  · rename_i row factor
    cases taken
    obtain ⟨held, here, valid⟩ := holds
    exact sound.commit held (record_requests db row factor)
      (record_guarded sound.guarded here valid)
  · split at taken
    · cases taken
    · rename_i fresh
      cases taken
      refine sound.commit holds ?_ ?_
      · rfl
      · exact enroll_guarded sound.guarded fresh _
  · split at taken
    · rename_i row factor fresh
      cases taken
      obtain ⟨held, here, valid⟩ := holds
      have recorded := record_guarded sound.guarded here valid
      have activated : SecondFactor.Guarded
          ((db.record row factor).totp.map fun row =>
            { row with activatedAt := some now, pendingExpiresAt := none })
          _ _ _ _ := recorded.map_totp fun _ => ⟨rfl, rfl⟩
      refine sound.commit held ?_ ?_
      · exact record_requests db row factor
      · apply activated.replace
        rw [record_generated]
        exact mem_freshCodes fresh
    · cases taken
  · rename_i row factor
    cases taken
    obtain ⟨held, here, valid⟩ := holds
    refine sound.commit held ?_ ?_
    · exact record_requests db row factor
    · exact removeTotp_guarded (record_guarded sound.guarded here valid)
  · split at taken
    · rename_i row factor fresh
      cases taken
      obtain ⟨held, here, valid⟩ := holds
      refine sound.commit held ?_ ?_
      · exact record_requests db row factor
      · apply (record_guarded sound.guarded here valid).replace
        rw [record_generated]
        exact mem_freshCodes fresh
    · cases taken
  · cases taken

theorem advanceStep_sound (sound : Sound db) {request : Request}
    (holds : request.stage.Holds db tx) {event : Event}
    (taken : advanceStep std db tx request event = some next) : Sound next := by
  obtain ⟨route, stage⟩ := request
  cases event with
  | lock =>
      simp only [advanceStep] at taken
      split at taken
      · exact lockStep_sound sound taken
      · cases taken
  | load now =>
      simp only [advanceStep] at taken
      split at taken
      · cases taken
        exact loadStep_sound sound holds now
      · cases taken
  | verify limited decrypts now =>
      simp only [advanceStep] at taken
      split at taken
      · cases taken
        exact verifyStep_sound sound holds limited decrypts now
      · cases taken
  | claim now =>
      simp only [advanceStep] at taken
      split at taken
      · cases taken
        exact claimStep_sound sound holds now
      · cases taken
  | commit now secret codes => exact commitStep_sound sound holds taken
  | rollback =>
      cases taken
      exact sound.finish tx

theorem step_sound {action : Action} (sound : Sound db)
    (taken : step std db action = some next) : Sound next := by
  cases action with
  | account user =>
      simp only [step] at taken
      split at taken
      · cases taken
      · cases taken
        exact
          { guarded := sound.guarded
            requests := fun other request stored =>
              (sound.requests other request stored).of_same id rfl rfl }
  | begin tx route =>
      simp only [step] at taken
      split at taken
      · cases taken
      · cases taken
        exact sound.setStage trivial
  | advance tx event =>
      simp only [step] at taken
      split at taken
      · cases taken
      · rename_i request stored
        exact advanceStep_sound sound (sound.requests tx request stored) taken

theorem sound_start (user : UserRow) : Sound (Db.start user) where
  guarded := by
    constructor
    · constructor <;> simp [Db.start]
    all_goals simp [Db.start]
  requests := by simp [Db.start]

end

/-- Whatever logins, activations, disables and regenerations overlap, and
whatever their clocks say: the accepted steps of a secret rise and are near the
clock, and a recovery code is accepted once and not after it was replaced. -/
theorem second_factor_works_once (std : Stdlib) {user : UserRow}
    {actions : List Action} {db : Db}
    (reached : run (step std) (Db.start user) actions = some db) :
    WorksOnce db.log := by
  have sound : Sound db :=
    run_invariant_of_step step_sound (sound_start user) reached
  exact sound.guarded.once

/-- The codes of the secret `12345678901234567890` for the first three steps. -/
def firstCodes : Stdlib where
  hotp _ step := (["755224", "287082", "359152"].getD step "969429").toList
  upper char := [char.toUpper]
  isSpace char := char = ' '

/-- An activation, a login with the code of the activation, and a login with the
next code. -/
def activateThenLogIn : List Action :=
  let codes := (List.range 10).map fun n =>
    RecoveryCode.mk ['0', '0', '0', Char.ofNat (48 + n)] (List.replicate 16 'A')
  let logIn (tx : TxId) (code : String) (now : Int) : List Action :=
    [.begin tx (.totpLogin ⟨tx, 60000, 300, 0⟩ (some code.toList) none),
      .advance tx .lock, .advance tx (.load 60000),
      .advance tx (.verify false true now)]
  [.begin 1 (.enroll 5), .advance 1 .lock, .advance 1 (.load 50000),
    .advance 1 (.commit 50000 7 []), .begin 2 (.activate "287082".toList),
    .advance 2 .lock, .advance 2 (.load 59000),
    .advance 2 (.verify false true 59), .advance 2 (.commit 59000 0 codes)] ++
  logIn 3 "287082" 61 ++ logIn 4 "359 152" 61 ++
  [.advance 4 (.claim 61000), .advance 4 (.commit 61000 0 [])]

theorem second_factor_works_once_replay :
    ∃ db, run (step firstCodes) (Db.start ⟨true, 5, 0, none, none⟩)
        activateThenLogIn = some db ∧
      db.log = [.accepted (.step 7 2 2), .replaced [],
        .accepted (.step 7 1 1)] ∧ WorksOnce db.log := by
  obtain ⟨db, reached, log⟩ : ∃ db,
      run (step firstCodes) (Db.start ⟨true, 5, 0, none, none⟩)
        activateThenLogIn = some db ∧
      db.log = [.accepted (.step 7 2 2), .replaced [],
        .accepted (.step 7 1 1)] := by
    refine ⟨_, rfl, ?_⟩
    decide +kernel
  exact ⟨db, reached, log, second_factor_works_once firstCodes reached⟩

end Brook.Auth.SecondFactor
