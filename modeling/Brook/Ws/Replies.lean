import Brook.Transition.Run
import Brook.Ws.Commands

namespace Brook.Ws

open Transition

/-! Every command gets one reply, and `call.ice` gets none unless it fails. -/

/-- The frames that answer the command with that id. -/
def replies (id : String) (sent : List Envelope) : Nat :=
  sent.countP fun envelope => envelope.re = some id

/-- A command was answered once, and a `call.ice` not at all. -/
def Exchange.Right (turn : Exchange) : Prop :=
  ∀ frame type id, frameType turn.received = some (frame, type) →
    frameId frame = some id →
    replies id turn.sent = if type = "call.ice" then 0 else 1

/-- What holds of a socket that stays open. -/
def Answered (line : Line) : Prop :=
  line.closed = true ∨ ∀ turn ∈ line.turns, turn.Right

/-- The data has its three fields, the socket is in the call, and a candidate
that is relayed meets an SFU that can be reached. -/
def Relayable (answers : Answers) (frame : Json) : Prop :=
  ∃ data held, frame.get? "data" = some data ∧ data.isObj = true ∧
    (∀ key ∈ ["call_id", "pc", "candidate"], (data.get? key).isSome = true) ∧
    answers.participantOf = some held ∧
    (relays held (data.get? "pc") = true →
      clientCandidate ((data.get? "candidate").getD .null) = true →
      answers.janus = .ok () ∧ answers.trickle ≠ .exception)

/-- Every `call.ice` with an id is one that can be served. -/
def IceServed (line : Line) : LineAction → Prop
  | .receive received answers =>
      line.closed = false → received.bytes ≤ maxFrameBytes →
        ∀ frame id, frameType received = some (frame, "call.ice") →
          frameId frame = some id → Relayable answers frame
  | .close => True

/-- It sends its one reply last, or raises before it. -/
def Ran.Single (re : Option String) (ran : Ran Unit) : Prop :=
  match ran.ended with
  | .ok () => ∃ body, ran.sent = [⟨body, re⟩]
  | .error _ => ran.sent = []

section

variable {uuid : Json → Option String} {answers : Answers} {frame : Json}
variable {re : Option String}

theorem Ran.single_send (body : Body) (re : Option String) :
    (Ran.send body re).Single re := ⟨body, rfl⟩

theorem Ran.single_raise (raised : Raise) (re : Option String) :
    (Ran.raise raised).Single re := rfl

theorem Ran.single_bind {α : Type} {first : Ran α} {next : α → Ran Unit}
    (silent : first.sent = []) (single : ∀ value, (next value).Single re) :
    (first >>= next).Single re := by
  obtain ⟨sent, ended⟩ := first
  cases silent
  cases ended with
  | error raised => exact rfl
  | ok value => exact single value

theorem require_silent (frame : Json) (keys : List String) :
    (require frame keys).sent = [] := by
  unfold require
  split
  · split <;> rfl
  · rfl

theorem participantOf_silent (answers : Answers) :
    (participantOf answers).sent = [] := by
  unfold participantOf
  split <;> rfl

theorem callJoin_single : (callJoin uuid answers frame re).Single re := by
  apply Ran.single_bind (require_silent _ _)
  intro data
  split
  · exact Ran.single_raise _ re
  · apply Ran.single_bind rfl
    intro joined
    exact Ran.single_send _ re

theorem callPublish_single : (callPublish answers frame re).Single re := by
  apply Ran.single_bind (require_silent _ _)
  intro data
  apply Ran.single_bind (participantOf_silent answers)
  intro held
  apply Ran.single_bind rfl
  intro answer
  exact Ran.single_send _ re

theorem callSubscribeAnswer_single :
    (callSubscribeAnswer answers frame re).Single re := by
  apply Ran.single_bind (require_silent _ _)
  intro data
  apply Ran.single_bind (participantOf_silent answers)
  intro held
  apply Ran.single_bind rfl
  intro done
  exact Ran.single_send _ re

theorem callMedia_single : (callMedia answers frame re).Single re := by
  apply Ran.single_bind (require_silent _ _)
  intro data
  apply Ran.single_bind (participantOf_silent answers)
  intro held
  exact Ran.single_send _ re

theorem callLeave_single : (callLeave answers frame re).Single re := by
  apply Ran.single_bind (require_silent _ _)
  intro data
  apply Ran.single_bind (participantOf_silent answers)
  intro held
  exact Ran.single_send _ re

theorem callResume_single : (callResume answers frame re).Single re := by
  apply Ran.single_bind (require_silent _ _)
  intro data
  apply Ran.single_bind rfl
  intro joined
  exact Ran.single_send _ re

/-- Whatever a handler raises, its wrapper or the loop makes one reply of it. -/
theorem caught_cmd {ran : Ran Unit} (single : ran.Single re) :
    ∃ body, caught re (cmd re ran) = [⟨body, re⟩] := by
  obtain ⟨sent, ended⟩ := ran
  cases ended with
  | ok value =>
      obtain ⟨body, rfl⟩ := single
      exact ⟨body, rfl⟩
  | error raised =>
      have silent : sent = [] := single
      subst silent
      cases raised with
      | callError code message => exact ⟨.error code message, rfl⟩
      | exception => exact ⟨.error "invalid" "internal error", rfl⟩

theorem handler_once {type : String} (notIce : type ≠ "call.ice")
    {ran : Ran Unit} (registered : handler uuid answers frame type = some ran) :
    ∃ body, caught (frameId frame) ran = [⟨body, frameId frame⟩] := by
  unfold handler at registered
  split at registered
  · cases registered
    exact ⟨.pong, rfl⟩
  · cases registered
    exact caught_cmd callJoin_single
  · cases registered
    exact caught_cmd callPublish_single
  · cases registered
    exact caught_cmd callSubscribeAnswer_single
  · exact (notIce rfl).elim
  · cases registered
    exact caught_cmd callMedia_single
  · cases registered
    exact caught_cmd callLeave_single
  · cases registered
    exact caught_cmd callResume_single
  · cases registered

/-- Every command but `call.ice` has one reply in its turn. -/
theorem serve_once {user : UserId} {received : Received} {type : String}
    {sent : List Envelope} (envelope : frameType received = some (frame, type))
    (notIce : type ≠ "call.ice")
    (served : serve uuid user answers received = some sent) :
    ∃ body, sent = [⟨body, frameId frame⟩] := by
  unfold serve at served
  split at served
  · cases served
  · simp only [envelope] at served
    split at served
    · unfold reauth at served
      split at served
      · cases served
      · split at served
        · cases served
        · cases served
        · cases served
        · split at served
          · cases served
          · split at served
            · cases served
            · cases served
              exact ⟨_, rfl⟩
    · split at served
      · cases served
        exact ⟨_, rfl⟩
      · rename_i ran registered
        cases served
        exact handler_once notIce registered

/-! ### Candidates -/

theorem require_ok {keys : List String} {data : Json} :
    (require frame keys).ended = .ok data ↔
      frame.get? "data" = some data ∧ data.isObj = true ∧
        ∀ key ∈ keys, (data.get? key).isSome = true := by
  unfold require
  split
  · rename_i found here
    split
    · rename_i fits
      rw [List.all_eq_true] at fits
      constructor
      · rintro ⟨⟩
        exact ⟨here, fits⟩
      · rintro ⟨same, -⟩
        rw [here, Option.some.injEq] at same
        subst same
        rfl
    · rename_i fails
      rw [List.all_eq_true] at fails
      constructor
      · rintro ⟨⟩
      · rintro ⟨same, fits⟩
        rw [here, Option.some.injEq] at same
        subst same
        exact (fails fits).elim
  · rename_i absent
    constructor
    · rintro ⟨⟩
    · rintro ⟨same, -⟩
      rw [absent] at same
      cases same

theorem participantOf_ok {held : Held} :
    (participantOf answers).ended = .ok held ↔
      answers.participantOf = some held := by
  unfold participantOf
  cases answers.participantOf with
  | none => exact ⟨by rintro ⟨⟩, by rintro ⟨⟩⟩
  | some found =>
      constructor
      · rintro ⟨⟩
        rfl
      · rintro ⟨⟩
        rfl

theorem Ran.bind_ok {α β : Type} {first : Ran α} {next : α → Ran β} {value : β} :
    (first >>= next).ended = .ok value ↔
      ∃ middle, first.ended = .ok middle ∧ (next middle).ended = .ok value := by
  obtain ⟨sent, ended⟩ := first
  cases ended with
  | error raised =>
      constructor
      · rintro ⟨⟩
      · rintro ⟨_, ⟨⟩, _⟩
  | ok middle =>
      constructor
      · exact fun done => ⟨middle, rfl, done⟩
      · rintro ⟨_, ⟨⟩, done⟩
        exact done

theorem Ran.silent_bind {α β : Type} {first : Ran α} {next : α → Ran β}
    (silent : first.sent = []) (rest : ∀ value, (next value).sent = []) :
    (first >>= next).sent = [] := by
  obtain ⟨sent, ended⟩ := first
  cases silent
  cases ended with
  | error raised => exact rfl
  | ok value => exact rest value

theorem callIce_silent (answers : Answers) (frame : Json) :
    (callIce answers frame).sent = [] := by
  apply Ran.silent_bind (require_silent _ _)
  intro data
  apply Ran.silent_bind (participantOf_silent answers)
  intro held
  split
  · rfl
  · split
    · rfl
    · apply Ran.silent_bind rfl
      intro reached
      split <;> rfl

theorem callIce_ok :
    (callIce answers frame).ended = .ok () ↔ Relayable answers frame := by
  unfold callIce
  rw [Ran.bind_ok]
  constructor
  · rintro ⟨data, required, rest⟩
    obtain ⟨here, isObj, keys⟩ := require_ok.mp required
    obtain ⟨held, found, rest⟩ := Ran.bind_ok.mp rest
    refine ⟨data, held, here, isObj, keys, participantOf_ok.mp found, ?_⟩
    intro relay candidate
    simp only [relay, candidate, not_true_eq_false, if_false] at rest
    obtain ⟨reached, janus, rest⟩ := Ran.bind_ok.mp rest
    refine ⟨janus, ?_⟩
    intro raised
    simp only [raised] at rest
    cases rest
  · rintro ⟨data, held, here, isObj, keys, found, served⟩
    refine ⟨data, require_ok.mpr ⟨here, isObj, keys⟩, ?_⟩
    refine Ran.bind_ok.mpr ⟨held, participantOf_ok.mpr found, ?_⟩
    split
    · rfl
    · rename_i relay
      split
      · rfl
      · rename_i candidate
        obtain ⟨janus, trickle⟩ := served (not_not.mp relay) (not_not.mp candidate)
        refine Ran.bind_ok.mpr ⟨(), janus, ?_⟩
        split
        · rfl
        · rfl
        · rename_i raised
          exact (trickle raised).elim

/-- A candidate that fails is answered after all. -/
theorem caught_ice (answers : Answers) (frame : Json) (re : Option String) :
    (Relayable answers frame ∧ caught re (cmd re (callIce answers frame)) = []) ∨
      (¬ Relayable answers frame ∧
        ∃ body, caught re (cmd re (callIce answers frame)) = [⟨body, re⟩]) := by
  have silent := callIce_silent answers frame
  have served := @callIce_ok answers frame
  generalize callIce answers frame = ran at silent served
  obtain ⟨sent, ended⟩ := ran
  cases silent
  cases ended with
  | ok value => exact Or.inl ⟨served.mp rfl, rfl⟩
  | error raised =>
      refine Or.inr ⟨?_, ?_⟩
      · intro relayable
        cases served.mpr relayable
      · cases raised with
        | callError code message => exact ⟨.error code message, rfl⟩
        | exception => exact ⟨.error "invalid" "internal error", rfl⟩

theorem serve_ice {user : UserId} {received : Received}
    (envelope : frameType received = some (frame, "call.ice"))
    (small : received.bytes ≤ maxFrameBytes) :
    serve uuid user answers received =
      some (caught (frameId frame)
        (cmd (frameId frame) (callIce answers frame))) := by
  rw [serve, if_neg (Nat.not_lt.mpr small)]
  simp only [envelope]
  rfl

theorem small_of_served {user : UserId} {received : Received}
    {sent : List Envelope}
    (served : serve uuid user answers received = some sent) :
    received.bytes ≤ maxFrameBytes := by
  unfold serve at served
  split at served
  · cases served
  · rename_i small
    exact Nat.not_lt.mp small

/-- A turn is right exactly when its `call.ice`, if it is one, can be served. -/
theorem serve_right {user : UserId} {received : Received}
    {sent : List Envelope}
    (served : serve uuid user answers received = some sent) :
    (Exchange.mk received sent).Right ↔
      ∀ frame id, frameType received = some (frame, "call.ice") →
        frameId frame = some id → Relayable answers frame := by
  have small := small_of_served served
  constructor
  · intro right frame id envelope named
    have none := right frame "call.ice" id envelope named
    rw [serve_ice envelope small, Option.some.injEq] at served
    rcases caught_ice answers frame (frameId frame) with
      ⟨relayable, -⟩ | ⟨-, body, answered⟩
    · exact relayable
    · rw [← served, answered, named] at none
      simp [replies] at none
  · intro relayable frame type id envelope named
    by_cases ice : type = "call.ice"
    · subst ice
      rw [serve_ice envelope small, Option.some.injEq] at served
      rcases caught_ice answers frame (frameId frame) with
        ⟨-, silent⟩ | ⟨failed, -⟩
      · rw [← served, silent, if_pos rfl]
        rfl
      · exact (failed (relayable frame id envelope named)).elim
    · obtain ⟨body, rfl⟩ := serve_once envelope ice served
      rw [if_neg ice, named]
      simp [replies]

variable {line next : Line}

theorem lineStep_answered {action : LineAction} (answered : Answered line)
    (served : IceServed line action)
    (taken : lineStep uuid line action = some next) : Answered next := by
  cases action with
  | receive received answers =>
      simp only [lineStep] at taken
      split at taken
      · cases taken
      · rename_i stillOpen
        have isOpen : line.closed = false := by simpa using stillOpen
        split at taken
        · cases taken
          exact Or.inl rfl
        · rename_i sent sentNow
          cases taken
          right
          intro turn mem
          rcases List.mem_cons.mp mem with rfl | old
          · exact (serve_right sentNow).mpr
              (served isOpen (small_of_served sentNow))
          · rcases answered with closed | right
            · rw [isOpen] at closed
              cases closed
            · exact right turn old
  | close =>
      cases taken
      exact Or.inl rfl

theorem iceServed_of_answered {action : LineAction}
    (taken : lineStep uuid line action = some next) (answered : Answered next) :
    IceServed line action := by
  cases action with
  | receive received answers =>
      intro isOpen small frame id envelope named
      have sentNow : serve uuid line.user answers received = some _ :=
        serve_ice envelope small
      simp only [lineStep, isOpen, sentNow, Bool.false_eq_true, if_false,
        Option.some.injEq] at taken
      subst taken
      rcases answered with closed | right
      · cases closed
      · have turn := right _ List.mem_cons_self
        exact (serve_right sentNow).mp turn frame id envelope named
  | close => trivial

end

/-- On a socket that stays open every command is answered once, and `call.ice`
never, exactly when every `call.ice` can be served. -/
theorem one_reply_iff_iceServed (uuid : Json → Option String) (user : UserId)
    (actions : List LineAction) :
    Throughout (lineStep uuid) Answered (Line.start user) actions ↔
      Along (lineStep uuid) IceServed (Line.start user) actions := by
  apply throughout_iff_along
  · exact id
  · exact lineStep_answered
  · exact fun _ => iceServed_of_answered
  · intro line action stuck
    cases action with
    | receive received answers =>
        intro isOpen small frame id envelope named
        simp [lineStep, isOpen, serve_ice envelope small] at stuck
    | close => trivial
  · exact Or.inr (by simp [Line.start])

/-- A `call.ice` for a call that the socket is not in. -/
def strayIce : Received where
  bytes := 90
  json := some (.obj [("type", .str "call.ice"), ("id", .str "i"),
    ("data", .obj [("call_id", .str "nope"), ("pc", .str "publish"),
      ("candidate", .null)])])

/-- Nothing fails that a handler waits for, but there is no call. -/
def noCall : Answers where
  join := .ok ⟨"c", "ch", "p", "t"⟩
  resume := .ok ⟨"c", "ch", "p", "t"⟩
  participantOf := none
  publish := .ok "v=0"
  subscribeAnswer := .ok ()
  janus := .ok ()
  trickle := .relayed
  limited := false
  authed := .accepted 7 0
  cutoff := 0

theorem stray_ice_is_answered :
    ¬ ∀ (uuid : Json → Option String) (user : UserId) actions line,
      run (lineStep uuid) (Line.start user) actions = some line →
      Answered line := by
  intro claimed
  have answered := claimed (fun _ => none) 7 [.receive strayIce noCall] _ rfl
  rcases answered with closed | right
  · cases closed
  · have turn := right _ List.mem_cons_self _ "call.ice" "i" rfl rfl
    revert turn
    decide +kernel

end Brook.Ws
