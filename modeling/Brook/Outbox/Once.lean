import Brook.Outbox.Send

namespace Brook.Outbox

/-! A client id is stored once: its index entry admits one transaction, and a
committed one refuses the rest. -/

namespace Server

/-- What a statement of the handler comes to. -/
inductive Resumes (server : Server) (id : RequestId) :
    Handler → Server × Option Answer → Prop
  | refused (handler : Handler) (code : Code) :
      Resumes server id handler (server.finish id, some (.refused code))
  | stored (handler : Handler) {message : Message}
      (member : message ∈ server.messages) :
      Resumes server id handler (server.finish id, some (.ok message))
  | went (request : Request) {passed later : Passed} (early : later ≠ .insert) :
      Resumes server id ⟨request, passed⟩ (server.keep id request later, none)
  | inserts {request : Request} {passed : Passed}
      (alone : server.inserting request.clientId = false)
      (absent : request.clientId ∉ server.stored) :
      Resumes server id ⟨request, passed⟩ (server.keep id request .insert, none)
  | commits {request : Request} {message : Message} (attachable : List FileId)
      (same : message.clientId = request.clientId) :
      Resumes server id ⟨request, .insert⟩
        ({ server.finish id with
            attachable
            messages := server.messages ++ [message] },
          some (.ok message))

structure Sound (server : Server) : Prop where
  once : server.stored.Nodup
  unstored : ∀ id request, server.handlers.get? id = some ⟨request, .insert⟩ →
    request.clientId ∉ server.stored
  apart : ∀ id other request same,
    server.handlers.get? id = some ⟨request, .insert⟩ →
    server.handlers.get? other = some ⟨same, .insert⟩ →
    request.clientId = same.clientId → id = other

variable {server : Server} {id other : RequestId} {handler : Handler}
  {request : Request} {passed : Passed} {message : Message}
  {outcome : Server × Option Answer}

theorem mem_stored_of_mem (member : message ∈ server.messages) :
    message.clientId ∈ server.stored :=
  List.mem_map_of_mem member

theorem mem_messages_of_storedSend {clientId : ClientId}
    (found : server.storedSend clientId = some message) :
    message ∈ server.messages :=
  List.mem_of_find?_eq_some found

theorem not_mem_stored_of_storedSend {clientId : ClientId}
    (found : server.storedSend clientId = none) : clientId ∉ server.stored := by
  rw [storedSend, List.find?_eq_none] at found
  rw [stored, List.mem_map]
  rintro ⟨message, member, rfl⟩
  exact found message member (by simp)

/-- Nothing is inserting the id: no handler stands behind its insert. -/
theorem ne_of_inserting {clientId : ClientId}
    (alone : server.inserting clientId = false)
    (stored : server.handlers.get? id = some ⟨request, .insert⟩) :
    request.clientId ≠ clientId := by
  intro same
  have member : (⟨request, .insert⟩ : Handler) ∈ server.handlers.values :=
    Table.mem_values.mpr ⟨id, stored⟩
  rw [inserting, List.any_eq_false] at alone
  exact alone _ member (by simp [same])

theorem handlers_of_finish
    (found : (server.finish id).handlers.get? other = some handler) :
    other ≠ id ∧ server.handlers.get? other = some handler := by
  simp only [finish, Table.get?_filter, Option.filter_eq_some_iff,
    decide_eq_true_eq] at found
  exact ⟨found.2, found.1⟩

theorem handlers_of_keep
    (found : (server.keep id request passed).handlers.get? other = some handler) :
    other = id ∧ handler = ⟨request, passed⟩ ∨
      other ≠ id ∧ server.handlers.get? other = some handler := by
  simp only [keep, Table.get?_put] at found
  split at found
  case isTrue same =>
    cases found
    exact Or.inl ⟨same, rfl⟩
  case isFalse different => exact Or.inr ⟨different, found⟩

theorem resumes (resumed : server.resume id = some outcome) :
    ∃ handler, server.handlers.get? id = some handler ∧
      Resumes server id handler outcome := by
  simp only [resume] at resumed
  split at resumed
  case h_1 => cases resumed
  case h_2 request found =>
    refine ⟨_, found, ?_⟩
    split at resumed
    case h_1 message earlier =>
      cases resumed
      exact .stored _ (mem_messages_of_storedSend earlier)
    case h_2 =>
      cases resumed
      exact .went request (by decide)
  case h_3 request found =>
    refine ⟨_, found, ?_⟩
    split at resumed
    case isTrue =>
      cases resumed
      exact .went request (by decide)
    case isFalse =>
      cases resumed
      exact .refused _ _
  case h_4 request found =>
    refine ⟨_, found, ?_⟩
    split at resumed
    case isTrue => cases resumed
    case isFalse alone =>
      split at resumed
      case h_1 message earlier =>
        cases resumed
        exact .stored _ (mem_messages_of_storedSend earlier)
      case h_2 absent =>
        cases resumed
        exact .inserts (Bool.eq_false_iff.mpr alone)
          (not_mem_stored_of_storedSend absent)
  case h_5 request found =>
    refine ⟨_, found, ?_⟩
    simp only [commit] at resumed
    split at resumed
    case isTrue =>
      cases resumed
      exact .commits _ rfl
    case isFalse =>
      cases resumed
      exact .refused _ _

namespace Sound

theorem start : Sound Server.start where
  once := List.nodup_nil
  unstored := by simp [Server.start]
  apart := by simp [Server.start]

theorem finish (sound : Sound server) : Sound (server.finish id) where
  once := sound.once
  unstored := fun other request found =>
    sound.unstored other request (handlers_of_finish found).2
  apart := fun one other request same found also =>
    sound.apart one other request same (handlers_of_finish found).2
      (handlers_of_finish also).2

/-- A handler that has not inserted its row is no one's rival. -/
theorem keep_early (sound : Sound server) (early : passed ≠ .insert) :
    Sound (server.keep id request passed) where
  once := sound.once
  unstored := by
    intro other row found
    obtain ⟨-, same⟩ | ⟨-, before⟩ := handlers_of_keep found
    · cases same
      exact (early rfl).elim
    · exact sound.unstored other row before
  apart := by
    intro one other row same found also
    obtain ⟨-, mine⟩ | ⟨-, before⟩ := handlers_of_keep found
    · cases mine
      exact (early rfl).elim
    · obtain ⟨-, mine⟩ | ⟨-, earlier⟩ := handlers_of_keep also
      · cases mine
        exact (early rfl).elim
      · exact sound.apart one other row same before earlier

theorem insert (sound : Sound server)
    (alone : server.inserting request.clientId = false)
    (absent : request.clientId ∉ server.stored) :
    Sound (server.keep id request .insert) where
  once := sound.once
  unstored := by
    intro other row found
    obtain ⟨-, same⟩ | ⟨-, before⟩ := handlers_of_keep found
    · cases same
      exact absent
    · exact sound.unstored other row before
  apart := by
    intro one other row rival found also same
    obtain ⟨rfl, mine⟩ | ⟨-, before⟩ := handlers_of_keep found
    · cases mine
      obtain ⟨rfl, -⟩ | ⟨-, earlier⟩ := handlers_of_keep also
      · rfl
      · exact (ne_of_inserting alone earlier same.symm).elim
    · obtain ⟨rfl, mine⟩ | ⟨-, earlier⟩ := handlers_of_keep also
      · cases mine
        exact (ne_of_inserting alone before same).elim
      · exact sound.apart one other row rival before earlier same

theorem commit (sound : Sound server) {attachable : List FileId}
    (found : server.handlers.get? id = some ⟨request, .insert⟩)
    (same : message.clientId = request.clientId) :
    Sound { server.finish id with
      attachable
      messages := server.messages ++ [message] } where
  once := by
    rw [stored, List.map_append]
    refine List.nodup_append.mpr ⟨sound.once, List.nodup_singleton _, ?_⟩
    intro clientId member other isNew
    cases List.mem_singleton.mp isNew
    rintro rfl
    exact sound.unstored id request found (same ▸ member)
  unstored := by
    intro other row still
    obtain ⟨different, before⟩ := handlers_of_finish still
    rw [stored, List.map_append, List.mem_append]
    rintro (member | isNew)
    · exact sound.unstored other row before member
    · have also : row.clientId = message.clientId := List.mem_singleton.mp isNew
      exact different (sound.apart other id row request before found
        (also.trans same))
  apart := sound.finish.apart

theorem resume (sound : Sound server)
    (found : server.handlers.get? id = some handler)
    (resumes : Resumes server id handler outcome) : Sound outcome.1 := by
  cases resumes with
  | refused | stored => exact sound.finish
  | went request early => exact sound.keep_early early
  | inserts alone absent => exact sound.insert alone absent
  | commits attachable same => exact sound.commit found same

end Sound

end Server

end Brook.Outbox
