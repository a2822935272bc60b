/-
Calls over connections do what calls within one process do.

* `Endpoint.text_injective`: an endpoint is told by its text;
* `Store.absorbEach_perm`: keys may be merged in any order;
* `Network.call_converse`: a call is the request carried out at the replica;
* `Network.absorbParts_of_up`: the parts of a pushed store arrive one after the
  other;
* `Network.agree_deliver`: merging and reading at a peer come to the same over a
  connection and within one process.
-/
import QuorumStore.Proofs.Batches
import QuorumStore.Proofs.Conversations
import QuorumStore.Proofs.Merging
import QuorumStore.Proofs.Operations
import QuorumStore.Service.Network

namespace QuorumStore

lemma Except.eq_ok_of_mapError_eq_ok {ε ε' α : Type} {x : Except ε α} {f : ε → ε'} {a : α}
    (h : x.mapError f = .ok a) : x = .ok a := by
  cases x with
  | error e => cases h
  | ok b => exact congrArg Except.ok (Except.ok.inj h)

/-! ### Endpoints -/

/-- The last of several separators splits a list in one way only. -/
lemma append_cons_inj_right {α : Type} {x : α} {xs ys us vs : List α} (hus : x ∉ us) (hvs : x ∉ vs)
    (h : xs ++ x :: us = ys ++ x :: vs) : xs = ys ∧ us = vs := by
  rcases List.append_eq_append_iff.mp h with ⟨_ | ⟨z, zs⟩, hys, hvs'⟩ | ⟨_ | ⟨z, zs⟩, hxs, hus'⟩
  · exact ⟨by simpa using hys.symm, (List.cons.inj hvs').2⟩
  · rw [List.cons_append, List.cons.injEq] at hvs'
    exact absurd (by simp [hvs'.2]) hus
  · exact ⟨by simpa using hxs, (List.cons.inj hus').2.symm⟩
  · rw [List.cons_append, List.cons.injEq] at hus'
    exact absurd (by simp [hus'.2]) hvs

/-- The text of an endpoint tells its address and its port apart, since no
digit is a colon. -/
theorem Endpoint.text_injective {a b : Endpoint} (h : a.text = b.text) : a = b := by
  have digits : ∀ n, ':' ∉ Nat.toDigits 10 n := fun n hm => by
    have digit := Nat.isDigit_of_mem_toDigits (by decide) (by decide) hm
    cases digit
  have spelled : ∀ e : Endpoint,
      e.text.toList = e.address.toList ++ ':' :: Nat.toDigits 10 e.port.toNat := fun e => by
    simp [Endpoint.text]
  rw [String.ext_iff, spelled, spelled] at h
  obtain ⟨haddress, hport⟩ := append_cons_inj_right (digits _) (digits _) h
  have hnat : a.port.toNat = b.port.toNat := by
    rw [← Nat.ofDigitChars_ten_toDigits (n := a.port.toNat), hport, Nat.ofDigitChars_ten_toDigits]
  obtain ⟨address, port⟩ := a
  obtain ⟨address', port'⟩ := b
  simp only [Endpoint.mk.injEq]
  exact ⟨String.toList_inj.mp haddress, UInt16.toNat_inj.mp hnat⟩

/-! ### Merging in any order -/

namespace Store

variable {s : Store} {key k : String}

lemma get?_absorb (s : Store) (key : String) (incoming : Siblings) (k : String) :
    (s.absorb key incoming).2.get? k =
      if key = k ∧ ((s.versions key).merge incoming).changed = true then
        some ((s.versions key).merge incoming).versions
      else s.get? k := by
  simp only [absorb]
  split_ifs with hchanged hk hk
  · rw [KeyMap.get?_insert, if_pos hk.1]
  · rw [KeyMap.get?_insert, if_neg fun h => hk ⟨h, hchanged⟩]
  · exact absurd hk.2 hchanged
  · rfl

/-- Merges into different keys do not meet. -/
lemma absorb_comm {j k : String} (h : j ≠ k) (s : Store) (v w : Siblings) :
    ((s.absorb j v).2.absorb k w).2 = ((s.absorb k w).2.absorb j v).2 := by
  refine KeyMap.ext_get? fun l => ?_
  simp only [get?_absorb, versions_absorb_of_ne h, versions_absorb_of_ne h.symm]
  split_ifs with h1 h2 h3 <;> simp_all

/-- The order in which different keys are merged matters neither for the store nor for the
count. -/
theorem absorbEach_perm {pairs pairs' : List (String × Siblings)} (h : pairs.Perm pairs')
    (hnodup : (pairs.map Prod.fst).Nodup) (s : Store) :
    s.absorbEach pairs = s.absorbEach pairs' := by
  refine h.foldl_eq' (fun p hp q hq acc => ?_) (0, s)
  by_cases hpq : p.1 = q.1
  · rw [List.inj_on_of_nodup_map hnodup hp hq hpq]
  · have hlater : ∀ {j k : String} (v w : Siblings), j ≠ k →
        ((acc.2.absorb j v).2.absorb k w).1 = (acc.2.absorb k w).1 := fun v w hjk =>
      congrArg (Siblings.merge · w) (versions_absorb_of_ne hjk)
    refine Prod.ext ?_ (absorb_comm hpq acc.2 p.2 q.2)
    dsimp only
    rw [hlater p.2 q.2 hpq, hlater q.2 p.2 (Ne.symm hpq), Nat.add_right_comm]

end Store

/-- A replica in service takes what is pushed to it, in whatever order. -/
lemma Replica.exists_absorbEach_eq_ok {r : Replica} (hup : r.outage.down = false)
    (pairs : List (String × Siblings)) :
    ∃ q, r.absorbEach pairs = (.ok (), q) ∧ q.store = (r.store.absorbEach pairs).2 ∧
      q.outage = r.outage := by
  rw [Replica.absorbEach, Outage.available, hup]
  exact ⟨_, rfl, rfl, rfl⟩

/-- A replica out of service takes nothing. -/
lemma Replica.absorbEach_of_down {r : Replica} (hdown : r.outage.down = true)
    (pairs : List (String × Siblings)) : r.absorbEach pairs = (.error .crashed, r) := by
  rw [Replica.absorbEach, Outage.available, hdown]
  rfl

/-! ### Replicas in their places -/

namespace Cluster

lemma modify_const (c : Cluster) (i : Nat) (q : Replica) :
    c.modify i (fun _ => q) = c.set i q := by
  rw [modify, set, List.modify_eq_set]

/-- Changing a replica that has just been put in its place. -/
lemma modify_set (c : Cluster) (i : Nat) (q : Replica) (f : Replica → Replica) :
    (c.set i q).modify i f = c.set i (f q) := by
  have hlist : (c.replicas.set i q).modify i f = c.replicas.set i (f q) := by
    refine List.ext_getElem? fun j => ?_
    rw [List.getElem?_modify, List.getElem?_set, List.getElem?_set]
    by_cases hij : i = j <;> simp [hij]
  rw [modify, set, set, hlist]

lemma set_self {c : Cluster} {i : Nat} {r : Replica} (hr : c.replicas[i]? = some r) :
    c.set i r = c := by
  rw [← modify_const, modify_of_getElem? hr]

lemma set_set (c : Cluster) (i : Nat) (q q' : Replica) : (c.set i q).set i q' = c.set i q' := by
  simp only [set, List.set_set]

lemma stores_set (c : Cluster) (i : Nat) (q : Replica) :
    (c.set i q).replicas.map Replica.store = (c.replicas.map Replica.store).set i q.store := by
  rw [set, List.map_set]

lemma deliver_eq {α : Type} {c : Cluster} {e : Endpoint} {i : Nat} {r : Replica}
    (hpeer : c.whoAnswers? e = some i) (hr : c.replicas[i]? = some r)
    (serve : Replica → Except Refusal α × Replica) :
    c.deliver e serve =
      ((serve r).1.mapError fun refusal => .remote (.ofRefusal refusal), c.set i (serve r).2) := by
  simp only [deliver, hpeer, hr]

end Cluster

/-! ### One call -/

/-- A message that has arrived alone is taken off, and nothing is left. -/
lemma Decoder.next_feed_line {α : Type} {k : Frame.Kind α} {a : α} {v : Json} (h : k.IsJson a v)
    (hfits : v.render.utf8ByteSize ≤ Frame.maxLength) :
    (Decoder.empty.feed (Utf8.bytes (v.render.push '\n'))).next k.parse? =
      (some (.ok a), .empty) := by
  rw [Frame.bytes_push_newline]
  exact Frame.next_of_message h hfits []

lemma Decoder.next_empty {α : Type} (read : String → Option α) :
    Decoder.empty.next read = (none, .empty) :=
  Decoder.next_of_none read (Decoder.nextLine_of_unfinished (by simp) (by simp))

lemma Frame.encode_of_fits {v : Json} (h : v.render.utf8ByteSize ≤ maxLength) :
    encode v = .ok (v.render.push '\n') := by
  rw [encode, if_neg (Nat.not_lt.mpr h)]

lemma Frame.encode_of_overlong {v : Json} (h : maxLength < v.render.utf8ByteSize) :
    encode v = .error (.tooLong maxLength) := by
  rw [encode, if_pos h]

namespace Session

variable {σ : Type}

/-- A request that arrives alone on a new connection is carried out, and its
reply is sent if it fits into a frame. -/
lemma receive_request (env : Surroundings σ) {request : Request} {v : Json}
    (h : request.IsJson v) (hfits : v.render.utf8ByteSize ≤ Frame.maxLength) (s : σ) :
    Session.start.receive env (Utf8.bytes (v.render.push '\n')) s =
      let answered := Coordination.dispatch env request s
      let text := (Reply.toJson answered.1).render
      if Frame.maxLength < text.utf8ByteSize then
        ([], ⟨.empty, .failed (.tooLong Frame.maxLength)⟩, answered.2)
      else ([text.push '\n'], Session.start, answered.2) := by
  have arrived : (Decoder.empty.feed (Utf8.bytes (v.render.push '\n'))).next Request.parse? =
      (some (.ok request), .empty) := Decoder.next_feed_line (k := .request) h hfits
  have none : Decoder.empty.next Request.parse? = (none, .empty) := Decoder.next_empty _
  have opened : Session.start.isOpen = true := rfl
  have step : Session.start.decoder.feed (Utf8.bytes (v.render.push '\n')) =
      Decoder.empty.feed (Utf8.bytes (v.render.push '\n')) := rfl
  simp only [receive, receiveWith, opened, if_true, step]
  rw [pump_of_request FrameError.message env _ s arrived]
  simp only [pump_of_idle FrameError.message env _ _ none]
  by_cases fits : (Coordination.dispatch env request s).1.Fits
  · rw [if_pos fits, if_neg (Nat.not_lt.mpr fits)]
    rfl
  · rw [if_neg fits, if_pos (Nat.lt_of_not_le fits)]

/-- A new connection over which nothing arrives stays as it is. -/
lemma receive_nil (env : Surroundings σ) (s : σ) :
    Session.start.receive env [] s = ([], Session.start, s) := by
  have opened : Session.start.isOpen = true := rfl
  have none : Decoder.empty.next Request.parse? = (none, .empty) := Decoder.next_empty _
  have nothing : Session.start.decoder.feed [] = Decoder.empty := rfl
  simp only [receive, receiveWith, opened, if_true, nothing]
  exact pump_of_idle FrameError.message env _ s none _

end Session

namespace Caller

variable {σ : Type}

/-- What a call brings back: the reply, or nothing if it was too long to send. -/
def brought (reply : Reply) : Except CallError Response :=
  if Frame.maxLength < (Reply.toJson reply).render.utf8ByteSize then .error .closed
  else reply.mapError .remote

lemma brought_of_fits {r : Reply}
    (hfits : (Reply.toJson r).render.utf8ByteSize ≤ Frame.maxLength) :
    brought r = r.mapError .remote := by
  rw [brought, if_neg (Nat.not_lt.mpr hfits)]

/-- The reply that reports a refusal is short. -/
lemma fits_ofRefusal (refusal : Refusal) :
    (Reply.toJson (.error (.ofRefusal refusal))).render.utf8ByteSize ≤ Frame.maxLength := by
  cases refusal with
  | crashed => decide
  | stale => decide
  | notFound key =>
    change (Reply.toJson (.error .notFound)).render.utf8ByteSize ≤ Frame.maxLength
    decide

lemma reply_of_line (peer : String) {r : Reply}
    (hfits : (Reply.toJson r).render.utf8ByteSize ≤ Frame.maxLength) (ended : Bool) :
    reply peer ⟨Utf8.bytes ((Reply.toJson r).render.push '\n'), ended⟩ = r.mapError .remote := by
  have arrived : (Decoder.empty.feed (Utf8.bytes ((Reply.toJson r).render.push '\n'))).next
      Reply.parse? = (some (.ok r), .empty) := Decoder.next_feed_line (k := .reply) rfl hfits
  simp only [reply, arrived]
  cases r <;> rfl

lemma reply_of_nothing (peer : String) : reply peer ⟨[], true⟩ = .error .closed := by
  have none : (Decoder.empty.feed []).next Reply.parse? = (none, .empty) :=
    Decoder.next_empty Reply.parse?
  have last : (Decoder.empty.last Reply.parse?).1 = Option.none := rfl
  simp [reply, none, last, settle]

/-- What comes back is never taken for an answer to another question. -/
lemma reply_ne_unexpectedReply (peer : String) (incoming : Incoming) (label : String) :
    reply peer incoming ≠ .error (.unexpectedReply label) := by
  have settled : ∀ first : Option (Except FrameError Reply),
      settle first ≠ some (.error (.unexpectedReply label)) := by
    rintro (_ | _ | _ | _) h <;> cases h
  intro h
  simp only [reply] at h
  split at h
  · rename_i heq
    exact settled _ (heq.trans (congrArg some h))
  · split at h
    · split at h
      · rename_i heq
        exact settled _ (heq.trans (congrArg some h))
      · cases h
    · cases h

/-- A call brings no answer to another question. -/
lemma call_ne_unexpectedReply (dial : Dial σ) (peer : String) (request : Request) (s : σ)
    (label : String) : (call dial peer request s).1 ≠ .error (.unexpectedReply label) := by
  intro h
  simp only [call] at h
  split at h
  · split at h
    · cases h
    · exact reply_ne_unexpectedReply _ _ _ h
  · split at h <;> cases h

end Caller

namespace Network

variable {reach : Reach} (onward : Dial Cluster) {c : Cluster} {peer : String} {i : Nat}
  {r : Replica}

/-- **A call carries the request to the replica and its reply back.** -/
lemma call_converse (hway : reach peer = none) (hpeer : listener? c peer = some i)
    (hr : c.replicas[i]? = some r) {request : Request}
    (hfits : request.toJson.render.utf8ByteSize ≤ Frame.maxLength) :
    Caller.call (converse reach onward) peer request c =
      let answered := Coordination.dispatch (surroundings onward i r) request c
      (Caller.brought answered.1, answered.2) := by
  have received := Session.receive_request (surroundings onward i r) request.isJson_toJson hfits c
  generalize Coordination.dispatch (surroundings onward i r) request c = answered at received ⊢
  obtain ⟨answer, c'⟩ := answered
  by_cases long : Frame.maxLength < (Reply.toJson answer).render.utf8ByteSize
  · simp only [if_pos long] at received
    simp only [Caller.call, Frame.encode_of_fits hfits, converse, hway, hpeer, hr, received,
      Caller.brought, if_pos long]
    exact congrArg (·, c') (Caller.reply_of_nothing peer)
  · have one : ∀ line, String.join [line] = line := fun line => String.empty_append
    simp only [if_neg long] at received
    simp only [Caller.call, Frame.encode_of_fits hfits, converse, hway, hpeer, hr, received, one,
      Caller.brought, if_neg long, Caller.reply_of_line peer (Nat.le_of_not_lt long)]

/-- A connection over which nothing is sent changes no replica. -/
lemma converse_nil (peer : String) (c : Cluster) : (converse reach onward peer [] c).2 = c := by
  simp only [converse]
  split
  · rfl
  · split
    · rfl
    · split
      · rfl
      · simp only [Session.receive_nil]

/-- No replica hears of a request that does not fit into a frame. -/
lemma call_of_overlong {request : Request}
    (hlong : Frame.maxLength < request.toJson.render.utf8ByteSize) (peer : String) (c : Cluster) :
    ∃ e, Caller.call (converse reach onward) peer request c = (.error e, c) := by
  have nothing : (converse reach onward peer [] c).2 = c := converse_nil onward peer c
  simp only [Caller.call, Frame.encode_of_overlong hlong]
  generalize converse reach onward peer [] c = tried at nothing
  obtain ⟨made, c'⟩ := tried
  obtain rfl : c' = c := nothing
  cases made with
  | error cause => exact ⟨_, rfl⟩
  | ok incoming => exact ⟨_, rfl⟩

/-- What is asked of a replica over a connection is answered as the replica
answers it, and it counts the request. -/
lemma ask_converse {α : Type} (hway : reach peer = none) (hpeer : listener? c peer = some i)
    (hr : c.replicas[i]? = some r) {request : Request} {take : Response → Option α}
    {wrap : α → Coordination.Outcome} {answer : Except Refusal α} {c' : Cluster}
    (hperform : Coordination.perform (surroundings onward i r) request c = (answer.map wrap, c'))
    (htake : ∀ a, take (wrap a).response = some a)
    (hfits : request.toJson.render.utf8ByteSize ≤ Frame.maxLength)
    (hreply : ∀ a, answer = .ok a →
      (Reply.toJson (.ok (wrap a).response)).render.utf8ByteSize ≤ Frame.maxLength) :
    Caller.ask (converse reach onward) peer request take c =
      (answer.mapError fun refusal => .remote (.ofRefusal refusal),
        c'.modify i (·.countServed request.method
          (Coordination.outcomeLabel (answer.map wrap)))) := by
  rw [Caller.ask, call_converse onward hway hpeer hr hfits]
  simp only [Coordination.dispatch, hperform]
  cases answer with
  | error refusal =>
    have brought := Caller.brought_of_fits (Caller.fits_ofRefusal refusal)
    simp only [Except.map, Except.mapError, brought]
    rfl
  | ok a =>
    have brought := Caller.brought_of_fits (hreply a rfl)
    simp only [Except.map, Except.mapError, brought, htake]
    rfl

/-! ### The same call both ways -/

/-- Whether two calls come to the same: they have the same answer, and every
replica holds the same versions afterwards. -/
structure Agree {α : Type} (x y : Except CallError α × Cluster) : Prop where
  /-- The answers are equal. -/
  answer : x.1 = y.1
  /-- The stores are equal. -/
  stores : x.2.replicas.map Replica.store = y.2.replicas.map Replica.store

lemma self_surroundings (hr : c.replicas[i]? = some r) :
    (surroundings onward i r).self c = r := by
  simp [surroundings, hr]

/-- The replica that answers at an endpoint is the one that listens there. -/
lemma listener?_text (c : Cluster) (e : Endpoint) : listener? c e.text = c.whoAnswers? e := by
  have same : ∀ p : Endpoint × Nat, decide (p.1.text = e.text) = decide (p.1 = e) := fun p =>
    decide_eq_decide.mpr ⟨Endpoint.text_injective, congrArg Endpoint.text⟩
  simp only [listener?, Cluster.whoAnswers?, same]

variable {e : Endpoint}

/-- A call that the replica serves by itself. -/
lemma ask_serve {α : Type} (hway : reach e.text = none) (hpeer : c.whoAnswers? e = some i)
    (hr : c.replicas[i]? = some r) {request : Request} {take : Response → Option α}
    {wrap : α → Coordination.Outcome} (serve : Replica → Except Refusal α × Replica)
    (hperform : Coordination.perform (surroundings onward i r) request c =
      ((serve r).1.map wrap, c.set i (serve r).2))
    (htake : ∀ a, take (wrap a).response = some a)
    (hfits : request.toJson.render.utf8ByteSize ≤ Frame.maxLength)
    (hreply : ∀ a, (serve r).1 = .ok a →
      (Reply.toJson (.ok (wrap a).response)).render.utf8ByteSize ≤ Frame.maxLength) :
    Caller.ask (converse reach onward) e.text request take c =
      ((serve r).1.mapError fun refusal => .remote (.ofRefusal refusal),
        c.set i ((serve r).2.countServed request.method
          (Coordination.outcomeLabel ((serve r).1.map wrap)))) := by
  rw [ask_converse onward hway ((listener?_text c e).trans hpeer) hr hperform htake hfits hreply,
    Cluster.modify_set]

/-- Such a call comes to the same both ways. -/
lemma agree_serve {α : Type} (hpeer : c.whoAnswers? e = some i) (hr : c.replicas[i]? = some r)
    {x : Except CallError α × Cluster} {serve : Replica → Except Refusal α × Replica}
    {method : Method} {outcome : String}
    (hx : x = ((serve r).1.mapError fun refusal => .remote (.ofRefusal refusal),
      c.set i ((serve r).2.countServed method outcome))) :
    Agree x (c.deliver e serve) := by
  rw [hx, Cluster.deliver_eq hpeer hr]
  refine ⟨rfl, ?_⟩
  simp only [Cluster.stores_set]
  rfl

/-- Merging versions of a key at a peer, over a connection. -/
lemma replicate_converse (hway : reach e.text = none) (hpeer : c.whoAnswers? e = some i)
    (hr : c.replicas[i]? = some r) (key : String) (versions : Siblings)
    (hfits : (Request.replicate key versions).toJson.render.utf8ByteSize ≤ Frame.maxLength) :
    Caller.replicate (converse reach onward) e.text key versions c =
      ((r.replicate key versions).1.mapError fun refusal => .remote (.ofRefusal refusal),
        c.set i ((r.replicate key versions).2.countServed .replicate
          (Coordination.outcomeLabel ((r.replicate key versions).1.map .replicate)))) := by
  have hperform : Coordination.perform (surroundings onward i r) (.replicate key versions) c =
      ((r.replicate key versions).1.map .replicate, c.set i (r.replicate key versions).2) := by
    simp only [Coordination.perform, self_surroundings onward hr, ← Cluster.modify_const]
    rfl
  have hreply : ∀ a, (r.replicate key versions).1 = .ok a →
      (Reply.toJson (.ok (.replicate a))).render.utf8ByteSize ≤ Frame.maxLength := by
    intro a _
    cases a <;> decide
  exact ask_serve onward hway hpeer hr (·.replicate key versions) hperform (fun _ => rfl) hfits
    hreply

/-- Merging versions of a key at a peer. -/
lemma agree_replicate (hway : reach e.text = none) (hpeer : c.whoAnswers? e = some i)
    (hr : c.replicas[i]? = some r) (key : String) (versions : Siblings)
    (hfits : (Request.replicate key versions).toJson.render.utf8ByteSize ≤ Frame.maxLength) :
    Agree (Caller.replicate (converse reach onward) e.text key versions c)
      (c.deliver e (·.replicate key versions)) :=
  agree_serve hpeer hr (replicate_converse onward hway hpeer hr key versions hfits)

/-- Reading a key at a peer. -/
lemma agree_fetch (hway : reach e.text = none) (hpeer : c.whoAnswers? e = some i)
    (hr : c.replicas[i]? = some r) (key : String)
    (hfits : (Request.fetch key).toJson.render.utf8ByteSize ≤ Frame.maxLength)
    (hreply : ∀ versions, r.fetch key = .ok versions →
      (Reply.toJson (.ok (.fetch versions))).render.utf8ByteSize ≤ Frame.maxLength) :
    Agree (Caller.fetch (converse reach onward) e.text key c)
      (c.deliver e (Cluster.serveFetch key)) := by
  have hperform : Coordination.perform (surroundings onward i r) (.fetch key) c =
      ((r.fetch key).map .fetch, c.set i r) := by
    simp only [Coordination.perform, self_surroundings onward hr, Cluster.set_self hr]
  exact agree_serve hpeer hr
    (ask_serve onward hway hpeer hr (Cluster.serveFetch key) hperform (fun _ => rfl) hfits hreply)

/-- Merging a part of a store at a peer. -/
lemma ask_absorb (hway : reach e.text = none) (hpeer : c.whoAnswers? e = some i)
    (hr : c.replicas[i]? = some r) {part : Store}
    (hfits : (Request.absorb part).toJson.render.utf8ByteSize ≤ Frame.maxLength) :
    ∃ outcome, Caller.ask (converse reach onward) e.text (.absorb part) Response.absorb? c =
      ((r.absorb part).1.mapError fun refusal => .remote (.ofRefusal refusal),
        c.set i ((r.absorb part).2.countServed .absorb outcome)) := by
  have hperform : Coordination.perform (surroundings onward i r) (.absorb part) c =
      ((r.absorb part).1.map fun _ => .absorb, c.set i (r.absorb part).2) := by
    simp only [Coordination.perform, self_surroundings onward hr, ← Cluster.modify_const]
    rfl
  exact ⟨_, ask_serve onward hway hpeer hr (·.absorb part) hperform (fun _ => rfl) hfits
    fun _ _ => by decide⟩

/-- A replica that is out of service refuses a pushed store when the first part
of it arrives. -/
lemma absorbParts_of_down (hway : reach e.text = none) (hpeer : c.whoAnswers? e = some i)
    (hr : c.replicas[i]? = some r) (hdown : r.outage.down = true) {parts : List Store}
    (hparts : parts ≠ [])
    (hfits : ∀ part ∈ parts,
      (Request.absorb part).toJson.render.utf8ByteSize ≤ Frame.maxLength) :
    ∃ outcome, Caller.absorbParts (converse reach onward) e.text parts c =
      (.error (.remote .crashed), c.set i (r.countServed .absorb outcome)) := by
  obtain ⟨part, rest, rfl⟩ := List.exists_cons_of_ne_nil hparts
  obtain ⟨outcome, hask⟩ := ask_absorb onward hway hpeer hr (hfits part List.mem_cons_self)
  rw [Replica.absorb, Replica.absorbEach_of_down hdown] at hask
  exact ⟨outcome, by rw [Caller.absorbParts, hask]; rfl⟩

/-- A replica in service merges the parts of a pushed store one after the other. -/
lemma absorbParts_of_up (hway : reach e.text = none) (hpeer : c.whoAnswers? e = some i)
    (hr : c.replicas[i]? = some r) (hup : r.outage.down = false) {parts : List Store}
    (hfits : ∀ part ∈ parts,
      (Request.absorb part).toJson.render.utf8ByteSize ≤ Frame.maxLength) :
    ∃ q : Replica, q.store = (r.store.absorbEach (parts.flatMap KeyMap.entries)).2 ∧
      Caller.absorbParts (converse reach onward) e.text parts c = (.ok (), c.set i q) := by
  induction parts generalizing c r with
  | nil => exact ⟨r, rfl, by rw [Caller.absorbParts, Cluster.set_self hr]⟩
  | cons part rest ih =>
    obtain ⟨outcome, hask⟩ := ask_absorb onward hway hpeer hr (hfits part List.mem_cons_self)
    obtain ⟨q, habsorb, hstore, houtage⟩ := Replica.exists_absorbEach_eq_ok hup part.entries
    rw [Replica.absorb, habsorb] at hask
    have hlt : i < c.replicas.length := (List.getElem?_eq_some_iff.mp hr).1
    obtain ⟨q', hq', hrest⟩ := ih (c := c.set i (q.countServed .absorb outcome))
      (r := q.countServed .absorb outcome) hpeer (List.getElem?_set_self hlt) (houtage ▸ hup)
      (fun p hp => hfits p (List.mem_cons_of_mem part hp))
    refine ⟨q', ?_, ?_⟩
    · rw [hq', List.flatMap_cons, Store.snd_absorbEach_append, ← hstore]
      rfl
    · rw [Caller.absorbParts, hask]
      simp only [Except.mapError, hrest, Cluster.set_set]

/-- Merging a pushed store at a peer, in as many parts as frames require and
with the keys in whatever order. -/
lemma agree_absorb (hway : reach e.text = none) (hpeer : c.whoAnswers? e = some i)
    (hr : c.replicas[i]? = some r) {pushed : Store} {pairs listed : List (String × Siblings)}
    (hpairs : pairs.Perm pushed.entries) (hlisted : listed.Perm pushed.entries)
    (hfits : ∀ p ∈ pushed.entries, Batch.weight p ≤ Frame.maxLength - Batch.envelope) :
    Agree (Caller.absorbPairs (converse reach onward) e.text pairs c)
      (c.deliver e (·.absorbEach listed)) := by
  have hnodup : (pairs.map Prod.fst).Nodup :=
    ((hpairs.map Prod.fst).nodup_iff).mpr pushed.nodup_keys
  obtain ⟨parts, hsplit, hne, hperm, htotal, -⟩ := Batch.exists_splitPairs_eq_ok hnodup
    fun p hp => hfits p (hpairs.mem_iff.mp hp)
  have hframes : ∀ part ∈ parts,
      (Request.absorb part).toJson.render.utf8ByteSize ≤ Frame.maxLength :=
    fun part hpart => Batch.fits_absorb (by decide) (htotal part hpart)
  have hcut : Caller.absorbPairs (converse reach onward) e.text pairs c =
      Caller.absorbParts (converse reach onward) e.text parts c := by
    rw [Caller.absorbPairs, hsplit]
  rw [hcut, Cluster.deliver_eq hpeer hr]
  cases hdown : r.outage.down with
  | true =>
    obtain ⟨outcome, hcall⟩ := absorbParts_of_down onward hway hpeer hr hdown hne hframes
    rw [hcall, Replica.absorbEach_of_down hdown]
    refine ⟨rfl, ?_⟩
    simp only [Cluster.stores_set]
    rfl
  | false =>
    obtain ⟨q, hq, hcall⟩ := absorbParts_of_up onward hway hpeer hr hdown hframes
    obtain ⟨q', habsorb, hq', -⟩ := Replica.exists_absorbEach_eq_ok hdown listed
    have hsame : q.store = q'.store := by
      rw [hq, hq']
      rw [Store.absorbEach_perm ((hperm.trans hpairs).trans hlisted.symm)
        (((hperm.map Prod.fst).nodup_iff).mpr hnodup) r.store]
    rw [hcall, habsorb]
    exact ⟨rfl, by simp only [Cluster.stores_set, hsame]⟩

/-! ### Fitting answers -/

/-- What comes of a request is of its kind. -/
lemma method_of_perform {σ : Type} (env : Surroundings σ) {request : Request} {s : σ}
    {outcome : Coordination.Outcome} (h : (Coordination.perform env request s).1 = .ok outcome) :
    outcome.response.method = request.method := by
  cases request with
  | assignList list =>
    cases h
    rfl
  | _ =>
    obtain ⟨a, -, rfl⟩ := Except.exists_of_map_eq_ok h
    rfl

/-- A replica answers a request with a response of its kind. -/
lemma method_of_dispatch {σ : Type} (env : Surroundings σ) {request : Request} {s : σ}
    {response : Response} (h : (Coordination.dispatch env request s).1 = .ok response) :
    response.method = request.method := by
  obtain ⟨outcome, hmap, rfl⟩ := Except.exists_of_map_eq_ok h
  exact method_of_perform env (Except.eq_ok_of_mapError_eq_ok hmap)

/-- **A reply answers the question that was asked.** -/
lemma method_of_call {request : Request} {response : Response}
    (h : (Caller.call (converse reach onward) peer request c).1 = .ok response) :
    response.method = request.method := by
  by_cases hlong : Frame.maxLength < request.toJson.render.utf8ByteSize
  · obtain ⟨e, hrefused⟩ := call_of_overlong onward hlong peer c
    rw [hrefused] at h
    cases h
  · have hfits := Nat.le_of_not_lt hlong
    cases hway : reach peer with
    | some cause =>
      simp only [Caller.call, Frame.encode_of_fits hfits, converse, hway] at h
      cases h
    | none =>
      cases hpeer : listener? c peer with
      | none =>
        simp only [Caller.call, Frame.encode_of_fits hfits, converse, hway, hpeer] at h
        cases h
      | some i =>
        cases hr : c.replicas[i]? with
        | none =>
          simp only [Caller.call, Frame.encode_of_fits hfits, converse, hway, hpeer, hr] at h
          cases h
        | some r =>
          rw [call_converse onward hway hpeer hr hfits] at h
          simp only [Caller.brought] at h
          split_ifs at h
          exact method_of_dispatch _ (Except.eq_ok_of_mapError_eq_ok h)

/-- Where every response of the kind of a request fits, no other answer comes. -/
lemma ask_ne_unexpectedReply {α : Type} {request : Request} {take : Response → Option α}
    (htake : ∀ response : Response, response.method = request.method → (take response).isSome)
    (label : String) : (Caller.ask (converse reach onward) peer request take c).1 ≠
      .error (.unexpectedReply label) := by
  intro h
  rw [Caller.ask] at h
  split at h
  · rename_i cause c' hcall
    obtain rfl : cause = .unexpectedReply label := Except.error.inj h
    exact Caller.call_ne_unexpectedReply _ _ _ _ _ (congrArg Prod.fst hcall)
  · rename_i response c' hcall
    have hsome := htake response (method_of_call onward (congrArg Prod.fst hcall))
    split at h
    · cases h
    · rename_i hnone
      rw [hnone] at hsome
      cases hsome

lemma absorbParts_ne_unexpectedReply (parts : List Store) (label : String) :
    (Caller.absorbParts (converse reach onward) peer parts c).1 ≠
      .error (.unexpectedReply label) := by
  induction parts generalizing c with
  | nil => simp [Caller.absorbParts]
  | cons part rest ih =>
    have hask : (Caller.ask (converse reach onward) peer (.absorb part) Response.absorb? c).1 ≠
        .error (.unexpectedReply label) :=
      ask_ne_unexpectedReply onward (fun response h => by
        cases response <;> simp_all [Response.method, Request.method, Response.absorb?]) label
    rw [Caller.absorbParts]
    split
    · exact ih
    · rename_i cause c' hcall
      rw [hcall] at hask
      exact hask

/-- **A peer that is called over a connection does what it does within one
process.**  Where a way leads to it and the frames are not too long, merging
versions, reading a key and merging a pushed store have the same answer both
ways, and leave the same versions.  The keys of the pushed store may be taken in
any order on either way, and as many parts are sent as frames require.  A reply
always answers the question that was asked, whatever is too long. -/
theorem agree_deliver (hway : reach e.text = none) (hpeer : c.whoAnswers? e = some i)
    (hr : c.replicas[i]? = some r) :
    (∀ key versions,
      (Request.replicate key versions).toJson.render.utf8ByteSize ≤ Frame.maxLength →
      Agree (Caller.replicate (converse reach onward) e.text key versions c)
        (c.deliver e (·.replicate key versions))) ∧
    (∀ key, (Request.fetch key).toJson.render.utf8ByteSize ≤ Frame.maxLength →
      (∀ versions, r.fetch key = .ok versions →
        (Reply.toJson (.ok (.fetch versions))).render.utf8ByteSize ≤ Frame.maxLength) →
      Agree (Caller.fetch (converse reach onward) e.text key c)
        (c.deliver e (Cluster.serveFetch key))) ∧
    (∀ (pushed : Store) pairs listed, pairs.Perm pushed.entries → listed.Perm pushed.entries →
      (∀ p ∈ pushed.entries, Batch.weight p ≤ Frame.maxLength - Batch.envelope) →
      Agree (Caller.absorbPairs (converse reach onward) e.text pairs c)
        (c.deliver e (·.absorbEach listed))) ∧
    (∀ request response,
      (Caller.call (converse reach onward) e.text request c).1 = .ok response →
      response.method = request.method) ∧
    ∀ label,
      (∀ key versions, (Caller.replicate (converse reach onward) e.text key versions c).1 ≠
        .error (.unexpectedReply label)) ∧
      (∀ key, (Caller.fetch (converse reach onward) e.text key c).1 ≠
        .error (.unexpectedReply label)) ∧
      ∀ pairs, (Caller.absorbPairs (converse reach onward) e.text pairs c).1 ≠
        .error (.unexpectedReply label) := by
  refine ⟨fun key versions hfits => agree_replicate onward hway hpeer hr key versions hfits,
    fun key hfits hreply => agree_fetch onward hway hpeer hr key hfits hreply,
    fun pushed pairs listed hpairs hlisted hfits =>
      agree_absorb onward hway hpeer hr hpairs hlisted hfits,
    fun request response h => method_of_call onward h, fun label => ⟨?_, ?_, ?_⟩⟩
  · intro key versions
    exact ask_ne_unexpectedReply onward (fun response h => by
      cases response <;> simp_all [Response.method, Request.method, Response.replicate?]) label
  · intro key
    exact ask_ne_unexpectedReply onward (fun response h => by
      cases response <;> simp_all [Response.method, Request.method, Response.fetch?]) label
  · intro pairs
    rw [Caller.absorbPairs]
    split
    · simp
    · exact absorbParts_ne_unexpectedReply onward _ label

/-- Two replicas, of which the second holds a version of a key.  The first replicates a
concurrent one, reads the key, and pushes a store of two keys that it takes from the end.
Then the second is out of service, and refuses all three. -/
theorem agree_deliver_pair :
    let e : Endpoint := ⟨"localhost", 8001⟩
    let v : Version := ⟨.ofPairs [("n1", 1)], [1]⟩
    let w : Version := ⟨.ofPairs [("n2", 1)], [2]⟩
    let pushed : Store := KeyMap.ofList [("k", [v]), ("l", [v, w])]
    let up := ((Cluster.pair ⟨2, 2⟩).deliver e (·.replicate "k" [w])).2
    let down := up.modify 1 fun r => { r with outage := ⟨true, none, 1⟩ }
    let call : Dial Cluster := dial fun _ => none
    Agree (Caller.replicate call e.text "k" [v] up) (up.deliver e (·.replicate "k" [v])) ∧
    Agree (Caller.fetch call e.text "k" up) (up.deliver e (Cluster.serveFetch "k")) ∧
    (Caller.fetch call e.text "k" up).1 = .ok [w] ∧
    Agree (Caller.absorbPairs call e.text pushed.entries.reverse up)
      (up.deliver e (·.absorbEach pushed.entries)) ∧
    Agree (Caller.replicate call e.text "k" [v] down) (down.deliver e (·.replicate "k" [v])) ∧
    Agree (Caller.fetch call e.text "k" down) (down.deliver e (Cluster.serveFetch "k")) ∧
    Agree (Caller.absorbPairs call e.text pushed.entries.reverse down)
      (down.deliver e (·.absorbEach pushed.entries)) ∧
    (Caller.absorbPairs call e.text pushed.entries.reverse down).1 = .error (.remote .crashed) := by
  intro e v w pushed up down call
  obtain ⟨replicated, fetched, absorbed, -⟩ := @agree_deliver (fun _ => none)
    (peerDial fun _ => none) up 1 _ e rfl (by decide +kernel) rfl
  obtain ⟨replicated', fetched', absorbed', -⟩ := @agree_deliver (fun _ => none)
    (peerDial fun _ => none) down 1 _ e rfl (by decide +kernel) rfl
  have write : (Request.replicate "k" [v]).toJson.render.utf8ByteSize ≤ Frame.maxLength := by
    decide +kernel
  have read : (Request.fetch "k").toJson.render.utf8ByteSize ≤ Frame.maxLength := by
    decide +kernel
  have answer : (Reply.toJson (.ok (.fetch [w]))).render.utf8ByteSize ≤ Frame.maxLength := by
    decide +kernel
  have entries : ∀ p ∈ pushed.entries, Batch.weight p ≤ Frame.maxLength - Batch.envelope := by
    decide +kernel
  have turned : pushed.entries.reverse.Perm pushed.entries := List.reverse_perm _
  have heard := fetched "k" read fun _ h => Except.ok.inj h ▸ answer
  have unheard := fetched' "k" read fun _ h => nomatch h
  have refused := absorbed' pushed _ _ turned (.refl _) entries
  have versions : (up.deliver e (Cluster.serveFetch "k")).1 = .ok [w] := by decide +kernel
  have fault : (down.deliver e (·.absorbEach pushed.entries)).1 = .error (.remote .crashed) := by
    decide +kernel
  exact ⟨replicated "k" [v] write, heard, heard.answer.trans versions,
    absorbed pushed _ _ turned (.refl _) entries, replicated' "k" [v] write, unheard, refused,
    refused.answer.trans fault⟩

end Network

end QuorumStore
