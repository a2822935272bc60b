/-
Messages are read back as they were written.

* `KeyMap.ofList_of_perm`: a map is the map of its pairs in any order;
* `Clock.ofJson?_toJson`, `Version.ofJson?_toJson`, `Store.ofJson?_listJson`: the
  parts of messages;
* `Request.IsJson`: what a request may be written as;
* `Request.ofJson?_of_isJson`, `Reply.ofJson?_toJson`: the messages themselves;
* `Request.plain_of_isJson`, `Reply.plain_toJson`: what they are written as is plain;
* `Request.parse?_render`, `Reply.parse?_render`: the text of a message is read
  as that message.
-/
import Mathlib.Tactic.Lemma
import QuorumStore.Message.Reader
import QuorumStore.Message.Writer
import QuorumStore.Proofs.Base64
import QuorumStore.Proofs.JsonText

namespace QuorumStore

/-- A list is read item by item from what its items were written as. -/
lemma mapM_map_eq_some {α β : Type} {write : α → β} {read : β → Option α} {l : List α}
    (h : ∀ a ∈ l, read (write a) = some a) : (l.map write).mapM read = some l := by
  induction l with
  | nil => rfl
  | cons a l ih =>
    simp [List.mapM_cons, h a List.mem_cons_self, ih fun b hb => h b (List.mem_cons_of_mem a hb)]

/-! ### Maps -/

namespace KeyMap

variable {α : Type}

/-- Pairs with different keys give every key the value that it is paired with. -/
lemma lookup_eq_some_iff_mem {l : List (String × α)} (h : (l.map Prod.fst).Nodup) {k : String}
    {v : α} : lookup k l = some v ↔ (k, v) ∈ l := by
  induction l with
  | nil => simp [lookup]
  | cons p rest ih =>
    rw [List.map_cons, List.nodup_cons] at h
    obtain ⟨j, w⟩ := p
    by_cases hj : j = k
    · subst hj
      have absent : (j, v) ∉ rest := fun hm => h.1 (List.mem_map.mpr ⟨_, hm, rfl⟩)
      simp [lookup, absent, eq_comm]
    · simp [lookup, hj, Ne.symm hj, ih h.2]

/-- Pairs with different keys are inserted without meeting one another. -/
lemma get?_foldl_insert {l : List (String × α)} (h : (l.map Prod.fst).Nodup) (m : KeyMap α)
    (k : String) :
    (l.foldl (fun m p => m.insert p.1 p.2) m).get? k = (lookup k l).or (m.get? k) := by
  induction l generalizing m with
  | nil => rfl
  | cons p rest ih =>
    rw [List.map_cons, List.nodup_cons] at h
    rw [List.foldl_cons, ih h.2, get?_insert, lookup]
    by_cases hk : p.1 = k
    · subst hk
      have absent : lookup p.1 rest = none := by
        refine Option.eq_none_iff_forall_ne_some.mpr fun v hv => h.1 ?_
        exact List.mem_map.mpr ⟨_, (lookup_eq_some_iff_mem h.2).mp hv, rfl⟩
      simp [absent]
    · simp [hk]

lemma nodup_keys (m : KeyMap α) : (m.entries.map Prod.fst).Nodup :=
  m.ascending.imp fun h => String.ne_of_lt h

/-- A map is the map of its pairs, in whatever order they come. -/
theorem ofList_of_perm {m : KeyMap α} {pairs : List (String × α)} (h : pairs.Perm m.entries) :
    ofList pairs = m := by
  have nodup : (pairs.map Prod.fst).Nodup := ((h.map Prod.fst).nodup_iff).mpr m.nodup_keys
  refine ext_get? fun k => Option.ext fun v => ?_
  rw [ofList, get?_foldl_insert nodup, get?_empty, Option.or_none, lookup_eq_some_iff_mem nodup,
    h.mem_iff, mem_entries_iff]

end KeyMap

namespace Json

/-! ### Plain values -/

/-- A number of at most twenty digits is read off its numeral. -/
lemma natural?_ofNat {n : Nat} (hn : n < Nat.pow 10 20) : (Numeral.ofNat n).natural? = some n := by
  have length : (Nat.toDigits 10 n).length ≤ 20 :=
    (Nat.length_toDigits_le_iff (by decide) (by decide)).mpr hn
  have value : Numeral.ofDigits (Nat.toDigits 10 n) = n := by
    calc Numeral.ofDigits (Nat.toDigits 10 n)
        = Nat.ofDigitChars 10 (Nat.toDigits 10 n) 0 := by
          simp [Numeral.ofDigits, Nat.ofDigitChars_eq_foldl, Nat.mul_comm]
      _ = n := Nat.ofDigitChars_ten_toDigits
  simp [Numeral.natural?, Numeral.ofNat, length, value]

/-- A number is read back if it is within the limit. -/
lemma natUpTo?_nat {n limit : Nat} (hn : n ≤ limit) (hlimit : limit < Nat.pow 10 20) :
    (nat n).natUpTo? limit = some n := by
  simp [natUpTo?, nat, natural?_ofNat (show n < Nat.pow 10 20 by omega), hn]

lemma text?_text (s : String) : (text s).text? = some s := rfl

lemma members?_obj (members : List (String × Json)) : (obj members).members? = some members := by
  exact mapM_map_eq_some fun p _ => rfl

/-! ### Records and tagged values -/

lemma fields?_obj (names : List String) (members : List (String × Json)) :
    (obj members).fields? names = names.mapM (theMember? members) := by
  rw [fields?, members?_obj, Option.bind_eq_bind, Option.bind_some]

lemma record?_obj (names : List String) (members : List (String × Json)) :
    (obj members).record? names = names.mapM (theMember? members) :=
  fields?_obj names members

lemma ofTag?_tag (method : Method) : Method.ofTag? method.tag = some method := by
  cases method <;> decide

/-- A tagged value is taken apart as it was put together. -/
lemma tagged?_taggedJson (method : Method) {name : String} (hname : name ≠ "method")
    (content : Option Json) (depth : Nat) :
    (taggedJson method name content).tagged? name depth = some (method, content) := by
  cases content with
  | none =>
    unfold taggedJson tagged?
    rw [members?_obj]
    simp [obj, theMember?, text, variant?, ofTag?_tag, hname.symm]
  | some content =>
    unfold taggedJson tagged?
    rw [members?_obj]
    simp [obj, theMember?, text, variant?, ofTag?_tag, hname, hname.symm]

lemma plain_taggedJson (method : Method) (name : String) {content : Option Json}
    (hcontent : ∀ v ∈ content, Plain v) : Plain (taggedJson method name content) := by
  cases content with
  | none =>
    refine .obj _ fun p hp => ?_
    obtain rfl := List.mem_singleton.mp hp
    exact .text _
  | some content =>
    refine .obj _ fun p hp => ?_
    simp only [List.mem_cons, List.not_mem_nil, or_false] at hp
    rcases hp with rfl | rfl
    · exact .text _
    · exact hcontent content rfl

end Json

/-! ### The domain -/

lemma Clock.ofCounters_counters (c : Clock) : Clock.ofCounters c.counters = c := by
  have kept : c.counters.entries.filter (fun p => p.2 ≠ 0) = c.counters.entries := by
    rw [List.filter_eq_self]
    intro p hp
    simpa using c.nonzero p hp
  obtain ⟨⟨entries, ascending⟩, nonzero⟩ := c
  simp only [Clock.ofCounters, Clock.mk.injEq, KeyMap.mk.injEq]
  exact kept

/-- A clock is read back from its counters. -/
theorem Clock.ofJson?_toJson (c : Clock) : Clock.ofJson? c.toJson = some c := by
  have pairs : (c.entries.map fun p => (p.1, Json.nat p.2.toNat)).mapM (fun p =>
      (p.2.natUpTo? counterLimit.toNat).map fun n => (p.1, UInt64.ofNat n)) =
        some c.entries := by
    refine mapM_map_eq_some fun p _ => ?_
    have hp : p.2.toNat ≤ counterLimit.toNat := Nat.le_of_lt_succ p.2.toNat_lt
    rw [Json.natUpTo?_nat hp (by decide), Option.map_some, UInt64.ofNat_toNat]
  rw [Clock.ofJson?, Clock.toJson, Json.members?_obj, Option.bind_eq_bind, Option.bind_some, pairs]
  simp [Clock.entries, KeyMap.ofList_of_perm (.refl _), Clock.ofCounters_counters]

lemma Clock.ofContextJson?_toContextJson (c : Clock) :
    Clock.ofContextJson? c.toContextJson = some c := by
  rw [Clock.ofContextJson?, Clock.toContextJson, Json.record?_obj]
  simp [Json.theMember?, Clock.ofJson?_toJson]

lemma bytesOfJson?_encode (bs : Bytes) : bytesOfJson? (.text (Base64.encode bs)) = some bs := by
  simp [bytesOfJson?, Json.text?_text, Base64.decode?_encode]

/-- A version is read back with its clock and all of its bytes. -/
theorem Version.ofJson?_toJson (v : Version) : Version.ofJson? v.toJson = some v := by
  rw [Version.ofJson?, Version.toJson, Json.record?_obj]
  simp [Json.theMember?, Clock.ofContextJson?_toContextJson, bytesOfJson?_encode]

/-- Versions are read back in order. -/
theorem Siblings.ofJson?_toJson (s : Siblings) : Siblings.ofJson? s.toJson = some s := by
  simp only [Siblings.ofJson?, Siblings.toJson, Json.items?, Option.bind_eq_bind,
    Option.bind_some]
  exact mapM_map_eq_some fun v _ => Version.ofJson?_toJson v

/-- Keys with their versions as the members of an object, in the given order. -/
def Store.listJson (pairs : List (String × Siblings)) : Json :=
  .obj (pairs.map fun p => (p.1, Siblings.toJson p.2))

/-- A store is read back with every key, in whatever order they are listed. -/
theorem Store.ofJson?_listJson {s : Store} {pairs : List (String × Siblings)}
    (h : pairs.Perm s.entries) : Store.ofJson? (Store.listJson pairs) = some s := by
  have read : (pairs.map fun p => (p.1, Siblings.toJson p.2)).mapM (fun p =>
      (Siblings.ofJson? p.2).map fun v => (p.1, v)) = some pairs := by
    refine mapM_map_eq_some fun p _ => ?_
    rw [Siblings.ofJson?_toJson, Option.map_some]
  rw [Store.ofJson?, Store.listJson, Json.members?_obj, Option.bind_eq_bind, Option.bind_some, read]
  simp [KeyMap.ofList_of_perm h]

theorem Endpoint.ofJson?_toJson (e : Endpoint) : Endpoint.ofJson? e.toJson = some e := by
  have hp : e.port.toNat ≤ 65535 := Nat.le_of_lt_succ e.port.toNat_lt
  rw [Endpoint.ofJson?, Endpoint.toJson, Json.record?_obj]
  simp [Json.theMember?, Json.text?_text, Json.natUpTo?_nat hp (by decide)]

/-! ### Requests and replies -/

/-- Whether a value is what a request is written with.  A store may list its keys
in any order. -/
def Request.IsParams (params : Option Json) : Request → Prop
  | .absorb pushed => ∃ pairs, pairs.Perm pushed.entries ∧
      params = some (.obj [("store", Store.listJson pairs)])
  | r => params = r.params?

/-- Whether a value is what a request is written as. -/
def Request.IsJson (r : Request) (v : Json) : Prop :=
  ∃ params, r.IsParams params ∧ v = taggedJson r.method "params" params

lemma Request.isJson_toJson (r : Request) : r.IsJson r.toJson := by
  refine ⟨r.params?, ?_, rfl⟩
  cases r with
  | absorb pushed => exact ⟨pushed.entries, .refl _, rfl⟩
  | _ => rfl

/-- A request is read back from its kind and its parameters. -/
lemma Request.ofParams?_of_isParams {r : Request} {params : Option Json} (h : r.IsParams params) :
    Request.ofParams? r.method params = some r := by
  cases r with
  | put key context value =>
    obtain rfl := h
    simp [Request.ofParams?, Request.method, Request.params?, Json.fields?_obj, Json.theMember?,
      Json.text?_text, Clock.ofContextJson?_toContextJson, bytesOfJson?_encode]
  | get key =>
    obtain rfl := h
    simp [Request.ofParams?, Request.method, Request.params?, Json.fields?_obj, Json.theMember?,
      Json.text?_text]
  | replicate key versions =>
    obtain rfl := h
    simp [Request.ofParams?, Request.method, Request.params?, Json.fields?_obj, Json.theMember?,
      Json.text?_text, Siblings.ofJson?_toJson]
  | fetch key =>
    obtain rfl := h
    simp [Request.ofParams?, Request.method, Request.params?, Json.fields?_obj, Json.theMember?,
      Json.text?_text]
  | absorb pushed =>
    obtain ⟨pairs, hpairs, rfl⟩ := h
    simp [Request.ofParams?, Request.method, Json.fields?_obj, Json.theMember?,
      Store.ofJson?_listJson hpairs]
  | gossip =>
    obtain rfl := h
    rfl
  | crash seconds =>
    have hs : seconds.toNat ≤ counterLimit.toNat := Nat.le_of_lt_succ seconds.toNat_lt
    obtain rfl := h
    simp [Request.ofParams?, Request.method, Request.params?, Json.fields?_obj, Json.theMember?,
      Json.natUpTo?_nat hs (by decide)]
  | assignList list =>
    have endpoints : (list.map Endpoint.toJson).mapM Endpoint.ofJson? = some list :=
      mapM_map_eq_some fun e _ => Endpoint.ofJson?_toJson e
    obtain rfl := h
    simp [Request.ofParams?, Request.method, Request.params?, Json.fields?_obj, Json.theMember?,
      Json.items?, endpoints]

/-- A request is read back as it was written. -/
theorem Request.ofJson?_of_isJson {r : Request} {v : Json} (h : r.IsJson v) :
    Request.ofJson? v = some r := by
  obtain ⟨params, hparams, rfl⟩ := h
  rw [Request.ofJson?, Json.tagged?_taggedJson _ (by decide)]
  exact Request.ofParams?_of_isParams hparams

lemma Response.ofResult?_result? (r : Response) :
    Response.ofResult? r.method r.result? = some r := by
  cases r <;> simp [Response.ofResult?, Response.method, Response.result?, Json.bool?,
    Siblings.ofJson?_toJson, Json.isUnit]

/-- A response is read back as it was written, however deep its content is nested. -/
theorem Response.ofJsonWithin?_toJson (r : Response) (depth : Nat) :
    Response.ofJsonWithin? depth r.toJson = some r := by
  rw [Response.ofJsonWithin?, Response.toJson, Json.tagged?_taggedJson _ (by decide)]
  exact r.ofResult?_result?

theorem Fault.ofJson?_toJson (f : Fault) : Fault.ofJson? f.toJson = some f := by
  cases f <;> rfl

/-- A reply is read back as it was written. -/
theorem Reply.ofJson?_toJson (r : Reply) : Reply.ofJson? (Reply.toJson r) = some r := by
  cases r with
  | error fault => simp [Reply.toJson, Json.obj, Reply.ofJson?, Fault.ofJson?_toJson]
  | ok response => simp [Reply.toJson, Json.obj, Reply.ofJson?, Response.ofJsonWithin?_toJson]

/-! ### The text of a message

What messages are written as is plain, so its text is read as that and as
nothing else. -/

open Json (Plain)

lemma Clock.plain_toJson (c : Clock) : Plain c.toJson := by
  refine .obj _ fun q hq => ?_
  obtain ⟨p, -, rfl⟩ := List.mem_map.mp hq
  exact .nat _

lemma Clock.plain_toContextJson (c : Clock) : Plain c.toContextJson :=
  .obj _ (by simp [c.plain_toJson])

lemma Version.plain_toJson (v : Version) : Plain v.toJson :=
  .obj _ (by simp [v.clock.plain_toContextJson, Plain.text])

lemma Siblings.plain_toJson (s : Siblings) : Plain s.toJson := by
  refine .array _ fun j hj => ?_
  obtain ⟨v, -, rfl⟩ := List.mem_map.mp hj
  exact v.plain_toJson

lemma Store.plain_listJson (pairs : List (String × Siblings)) : Plain (Store.listJson pairs) := by
  refine .obj _ fun q hq => ?_
  obtain ⟨p, -, rfl⟩ := List.mem_map.mp hq
  exact Siblings.plain_toJson p.2

lemma Endpoint.plain_toJson (e : Endpoint) : Plain e.toJson :=
  .obj _ (by simp [Plain.text, Plain.nat])

/-- What a request is written as is plain. -/
theorem Request.plain_of_isJson {r : Request} {v : Json} (h : r.IsJson v) : Plain v := by
  obtain ⟨params, hparams, rfl⟩ := h
  refine Json.plain_taggedJson _ _ fun p hp => ?_
  cases r with
  | put key context value =>
    obtain rfl := Option.mem_some.mp (hparams ▸ hp)
    exact .obj _ (by simp [context.plain_toContextJson, Plain.text])
  | get key =>
    obtain rfl := Option.mem_some.mp (hparams ▸ hp)
    exact .obj _ (by simp [Plain.text])
  | replicate key versions =>
    obtain rfl := Option.mem_some.mp (hparams ▸ hp)
    exact .obj _ (by simp [Siblings.plain_toJson versions, Plain.text])
  | fetch key =>
    obtain rfl := Option.mem_some.mp (hparams ▸ hp)
    exact .obj _ (by simp [Plain.text])
  | absorb pushed =>
    obtain ⟨pairs, -, rfl⟩ := hparams
    obtain rfl := Option.mem_some.mp hp
    exact .obj _ (by simp [Store.plain_listJson])
  | gossip =>
    obtain rfl := hparams
    cases hp
  | crash seconds =>
    obtain rfl := Option.mem_some.mp (hparams ▸ hp)
    exact .obj _ (by simp [Plain.nat])
  | assignList list =>
    have endpoints : Plain (.array (list.map Endpoint.toJson)) := by
      refine .array _ fun j hj => ?_
      obtain ⟨e, -, rfl⟩ := List.mem_map.mp hj
      exact e.plain_toJson
    obtain rfl := Option.mem_some.mp (hparams ▸ hp)
    exact .obj _ (by simp [endpoints])

lemma Response.plain_toJson (r : Response) : Plain r.toJson := by
  refine Json.plain_taggedJson _ _ fun v hv => ?_
  cases r with
  | put ok => exact Option.mem_some.mp hv ▸ .bool ok
  | get versions => exact Option.mem_some.mp hv ▸ Siblings.plain_toJson versions
  | replicate stored => exact Option.mem_some.mp hv ▸ .bool stored
  | fetch versions => exact Option.mem_some.mp hv ▸ Siblings.plain_toJson versions
  | crash ok => exact Option.mem_some.mp hv ▸ .bool ok
  | absorb => cases hv
  | gossip => cases hv
  | assignList => cases hv

lemma Fault.plain_toJson (f : Fault) : Plain f.toJson := by
  cases f with
  | badRequest reason => exact .obj _ (by simp [Plain.text])
  | _ => exact .text _

/-- What a reply is written as is plain. -/
theorem Reply.plain_toJson (r : Reply) : Plain (Reply.toJson r) := by
  cases r with
  | ok response => exact .obj _ (by simp [response.plain_toJson])
  | error fault => exact .obj _ (by simp [fault.plain_toJson])

/-- **The text of a request is read as that request.** -/
theorem Request.parse?_render {r : Request} {v : Json} (h : r.IsJson v) :
    Request.parse? v.render = some r := by
  rw [Request.parse?, Json.parse?_render (Request.plain_of_isJson h), Option.bind_some,
    Request.ofJson?_of_isJson h]

/-- **The text of a reply is read as that reply.** -/
theorem Reply.parse?_render (r : Reply) : Reply.parse? (Reply.toJson r).render = some r := by
  rw [Reply.parse?, Json.parse?_render (Reply.plain_toJson r), Option.bind_some,
    Reply.ofJson?_toJson]

end QuorumStore
