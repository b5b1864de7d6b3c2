import Brook.Transport.Moves

namespace Brook.Transport

open Brook.CallTask (CommandError)
open Brook.Ws (Json)

/-! The ids of a connection, and when it may write. -/

namespace Client

private theorem dash_notMem (number : Nat) : '-' ∉ Nat.toDigits 10 number := fun mem =>
  absurd (Nat.isDigit_of_mem_toDigits (by omega) (by omega) mem) (by decide)

private theorem toDigits_inj {number other : Nat}
    (same : Nat.toDigits 10 number = Nat.toDigits 10 other) : number = other := by
  have read := congrArg (Nat.ofDigitChars 10 · 0) same
  simpa [Nat.ofDigitChars_toDigits] using read

theorem frameId_inj {generation number otherGeneration otherNumber : Nat} :
    frameId generation number = frameId otherGeneration otherNumber ↔
      generation = otherGeneration ∧ number = otherNumber := by
  constructor
  · intro same
    have digits := congrArg String.toList same
    simp only [frameId, toString, String.toList_append, Nat.toList_repr] at digits
    simp only [List.append_assoc] at digits
    obtain ⟨front, -, back⟩ := (List.append_cons_inj_of_notMem (dash_notMem generation)
      (dash_notMem number)).mp digits
    exact ⟨toDigits_inj front, toDigits_inj back⟩
  · rintro ⟨rfl, rfl⟩
    rfl

end Client

/-- An id that this connection has given out. -/
def Link.Gave (link : Link) (id : String) : Prop :=
  ∃ generation number, id = Client.frameId generation number ∧ number ≤ link.nextId

theorem Link.Gave.later {link next : Link} {id : String} (gave : link.Gave id)
    (grows : link.nextId ≤ next.nextId) : next.Gave id := by
  obtain ⟨generation, number, is, given⟩ := gave
  exact ⟨generation, number, is, given.trans grows⟩

theorem Link.not_gave_next (link : Link) (generation : Nat) :
    ¬ link.Gave (Client.frameId generation (link.nextId + 1)) := by
  rintro ⟨other, number, is, given⟩
  have same := (Client.frameId_inj.mp is).2
  omega

structure Link.Sound (ready : Bool) (link : Link) : Prop where
  pending : ∀ id waiting, link.pending.get? id = some waiting → link.Gave id
  reauth : ∀ reauth, link.reauth = some reauth →
    link.Gave reauth.id ∧ link.pending.get? reauth.id = none
  /-- Nothing is written before the socket is ready. -/
  quiet : ready = false → (∀ id, link.pending.get? id = none) ∧ link.reauth = none
  ready : link.ready = true → ready = true

structure Sound (client : Client) : Prop where
  link : ∀ link, client.link = some link → link.Sound client.conn.ready
  ready : client.conn.ready = true → client.stopped = false → client.link.isSome = true
  stopped : client.stopped = true → client.link = none

variable {client next : Client} {link : Link}

theorem Link.Sound.ready_of_get {ready : Bool} {id : String} {waiting : Pending}
    (sound : link.Sound ready) (waits : link.pending.get? id = some waiting) : ready = true := by
  by_contra unready
  have absent := (sound.quiet (by simpa using unready)).1 id
  rw [waits] at absent
  cases absent

theorem Link.Sound.later {ready : Bool} (sound : link.Sound ready) (ids : Nat) :
    Link.Sound ready { link with nextId := link.nextId + ids } where
  pending id waiting waits := (sound.pending id waiting waits).later (Nat.le_add_right _ _)
  reauth reauth flying :=
    ⟨(sound.reauth reauth flying).1.later (Nat.le_add_right _ _), (sound.reauth reauth flying).2⟩
  quiet := sound.quiet
  ready := sound.ready

theorem Link.Sound.aside {ready : Bool} (sound : link.Sound ready) {later : Link}
    (aside : link.Aside ready later) : later.Sound ready where
  pending id waiting waits := by
    rw [aside.pending] at waits
    exact (sound.pending id waiting waits).later aside.nextId.ge
  reauth reauth flying := by
    rcases aside.reauth with same | gone
    · rw [same] at flying
      obtain ⟨gave, free⟩ := sound.reauth reauth flying
      exact ⟨gave.later aside.nextId.ge, by rwa [aside.pending]⟩
    · rw [gone] at flying
      cases flying
  quiet unready := by
    obtain ⟨absent, gone⟩ := sound.quiet unready
    refine ⟨fun id => by rw [aside.pending]; exact absent id, ?_⟩
    rcases aside.reauth with same | gone'
    · rw [same, gone]
    · exact gone'
  ready is := (aside.ready is).elim sound.ready id

theorem Link.Sound.fewer {ready : Bool} (sound : link.Sound ready) (keep : String → Pending → Bool)
    (ids : Nat) :
    Link.Sound ready { link with
      pending := link.pending.filter keep
      nextId := link.nextId + ids } where
  pending id waiting waits := by
    simp only [Table.get?_filter, Option.filter_eq_some_iff] at waits
    exact (sound.pending id waiting waits.1).later (Nat.le_add_right _ _)
  reauth reauth flying := by
    obtain ⟨gave, free⟩ := sound.reauth reauth flying
    exact ⟨gave.later (Nat.le_add_right _ _), by simp [free]⟩
  quiet unready := by
    obtain ⟨absent, gone⟩ := sound.quiet unready
    exact ⟨fun id => by simp [absent id], gone⟩
  ready := sound.ready

theorem Link.Sound.register (sound : link.Sound true) (generation : Nat) (wanted : Option Wanted)
    (deadline : Nat) :
    (Client.register { link with nextId := link.nextId + 1 }
      (Client.frameId generation (link.nextId + 1)) wanted deadline).Sound true := by
  have fresh := link.not_gave_next generation
  have gave : ∀ {id}, link.Gave id → Link.Gave { link with nextId := link.nextId + 1 } id :=
    fun gave => gave.later (Nat.le_succ _)
  cases wanted with
  | none =>
      exact
        { pending := fun id waiting waits => gave (sound.pending id waiting waits)
          reauth := fun reauth flying =>
            ⟨gave (sound.reauth reauth flying).1, (sound.reauth reauth flying).2⟩
          quiet := fun unready => by cases unready
          ready := fun _ => rfl }
  | some wanted =>
      refine
        { pending := fun id waiting waits => ?_
          reauth := fun reauth flying => ⟨gave (sound.reauth reauth flying).1, ?_⟩
          quiet := fun unready => by cases unready
          ready := fun _ => rfl }
      · simp only [Client.register, Table.get?_put] at waits
        by_cases same : id = Client.frameId generation (link.nextId + 1)
        · exact ⟨generation, link.nextId + 1, same, le_refl _⟩
        · rw [if_neg (by simpa using same)] at waits
          exact gave (sound.pending id waiting waits)
      · have other : reauth.id ≠ Client.frameId generation (link.nextId + 1) := fun same =>
          fresh (same ▸ (sound.reauth reauth flying).1)
        simp only [Client.register, Table.get?_put]
        rw [if_neg (by simpa using other)]
        exact (sound.reauth reauth flying).2

theorem Link.Sound.becameReady {ready : Bool} (sound : link.Sound ready) : link.Sound true where
  pending := sound.pending
  reauth := sound.reauth
  quiet unready := by cases unready
  ready _ := rfl

theorem Link.Sound.reauthSent (sound : link.Sound true) (generation rev deadline : Nat) :
    Link.Sound true { link with
      nextId := link.nextId + 1
      reauth := some ⟨Client.frameId generation (link.nextId + 1), rev, deadline⟩ } where
  pending id waiting waits := (sound.pending id waiting waits).later (Nat.le_succ _)
  reauth reauth flying := by
    cases flying
    refine ⟨⟨generation, link.nextId + 1, rfl, le_refl _⟩, ?_⟩
    by_contra taken
    obtain ⟨waiting, waits⟩ := Option.ne_none_iff_exists'.mp taken
    exact link.not_gave_next generation (sound.pending _ _ waits)
  quiet unready := by cases unready
  ready _ := rfl

/-- A move that leaves the socket and its link in place. -/
theorem Sound.onLink (sound : Sound client) (isOpen : client.link = some link)
    (later : Link) (nextLink : next.link = some later) (stopped : next.stopped = client.stopped)
    (linkSound : later.Sound next.conn.ready) : Sound next where
  link other is := by
    rw [nextLink] at is
    cases is
    exact linkSound
  ready _ _ := by rw [nextLink]; rfl
  stopped is := by
    rw [stopped] at is
    rw [sound.stopped is] at isOpen
    cases isOpen

/-- A move beside the socket. -/
theorem Sound.beside (sound : Sound client) (link : next.link = client.link)
    (conn : next.conn = client.conn) (stopped : next.stopped = client.stopped) : Sound next where
  link other is := by
    rw [link] at is
    rw [conn]
    exact sound.link other is
  ready := by rw [conn, link, stopped]; exact sound.ready
  stopped := by rw [stopped, link]; exact sound.stopped

theorem Sound.move (sound : Sound client) (move : Move client next) : Sound next := by
  cases move with
  | aside aside =>
      cases isOpen : client.link with
      | none =>
          exact sound.beside ((aside.closed isOpen).trans isOpen.symm) aside.conn aside.stopped
      | some link =>
          obtain ⟨later, is, same⟩ := aside.link link isOpen
          refine sound.onLink isOpen later is aside.stopped ?_
          rw [aside.conn]
          exact (sound.link link isOpen).aside same
  | refused | asked | notified | queued | skipped | received =>
      exact sound.beside rfl rfl rfl
  | turnedAway =>
      rw [Client.fail_eq]
      exact sound.beside rfl rfl rfl
  | unsent link out rest error ids isOpen =>
      rw [Client.fail_eq]
      refine sound.onLink isOpen _ rfl rfl ?_
      exact (sound.link link isOpen).later ids
  | wrote link out rest took isOpen first ready =>
      have linkSound := sound.link link isOpen
      rw [ready] at linkSound
      refine sound.onLink isOpen _ rfl rfl ?_
      show Link.Sound client.conn.ready _
      rw [ready]
      exact linkSound.register _ _ _
  | reauth link took isOpen ready =>
      have linkSound := sound.link link isOpen
      rw [ready] at linkSound
      refine sound.onLink isOpen _ rfl rfl ?_
      show Link.Sound client.conn.ready _
      rw [ready]
      exact linkSound.reauthSent _ _ _
  | replied link frame re waiting routes more isOpen =>
      exact sound.onLink isOpen _ rfl rfl ((sound.link link isOpen).fewer _ 0)
  | left link frame re waiting isOpen =>
      exact sound.onLink isOpen _ rfl rfl ((sound.link link isOpen).fewer _ 1)
  | failed link id waiting isOpen =>
      rw [Client.fail_eq]
      exact sound.onLink isOpen _ rfl rfl ((sound.link link isOpen).fewer _ 0)
  | expired link isOpen =>
      rw [Client.expire, Client.failAll_eq]
      exact sound.onLink isOpen _ rfl rfl ((sound.link link isOpen).fewer _ 0)
  | ended link isOpen =>
      rw [Client.finish, Client.failAll_eq]
      exact
        { link := fun other is => by cases is
          ready := fun ready => by cases ready
          stopped := fun _ => rfl }
  | opened closed runs =>
      have unready : client.conn.ready = false := by
        by_contra ready
        have isOpen := sound.ready (by simpa using ready) runs
        rw [closed] at isOpen
        cases isOpen
      refine
        { link := fun other is => ?_
          ready := fun _ _ => rfl
          stopped := fun is => absurd (runs.symm.trans is) (by decide) }
      cases is
      exact
        { pending := fun id waiting waits => by simp at waits
          reauth := fun reauth flying => by cases flying
          quiet := fun _ => ⟨fun id => by simp, rfl⟩
          ready := fun is => by cases is }
  | becameReady link isOpen =>
      exact sound.onLink isOpen link isOpen rfl (sound.link link isOpen).becameReady
  | stopped =>
      rw [Client.stop, Client.failAll_eq]
      exact
        { link := fun other is => by cases is
          ready := fun _ runs => by cases runs
          stopped := fun _ => rfl }

end Brook.Transport
