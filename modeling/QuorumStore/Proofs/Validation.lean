/-
What is reported as wrong with a configuration.

* `Config.nodeProblems_eq_nil_iff`: nothing is wrong with some replicas, given
  those before them;
* `Config.problems_eq_nil_iff`: nothing is wrong with a configuration exactly if
  it is sound;
* `Config.nodeProblems_eq_flatMap`: what is wrong with replicas is what is wrong with
  each of them, given those at earlier positions;
* `Config.problems_of_nodes`: so a report names, in order, all the replicas that
  repeat a name or an endpoint or lack one, whatever else is wrong.

Endpoints are compared by their texts, which tell them apart
(`Endpoint.text_injective`), so replicas with different texts listen at
different endpoints and the other way round.
-/
import QuorumStore.Config.Problem
import QuorumStore.Proofs.Transport

namespace QuorumStore

namespace Config

/-- **What a configuration is to satisfy.** -/
structure Sound (c : Config) : Prop where
  /-- There is a replica. -/
  nodes : c.nodes ≠ []
  /-- A write reaches at least one replica and at most all of them. -/
  write : 1 ≤ c.writeQuorum ∧ c.writeQuorum ≤ c.nodes.length
  /-- A read reaches at least one replica and at most all of them. -/
  read : 1 ≤ c.readQuorum ∧ c.readQuorum ≤ c.nodes.length
  /-- There is time to wait for a peer. -/
  timeout : 0 < c.timeout
  /-- Every replica has a name and an address. -/
  named : ∀ n ∈ c.nodes, n.id ≠ "" ∧ n.address ≠ ""
  /-- No two replicas have the same name. -/
  ids : (c.nodes.map NodeConfig.id).Nodup
  /-- No two replicas listen at the same endpoint. -/
  ring : c.ring.Nodup

lemma quorumProblems_eq_nil_iff {nodes : Nat} (hnodes : 0 < nodes) (setting : QuorumSetting)
    (value : Nat) : quorumProblems nodes setting value = [] ↔ 1 ≤ value ∧ value ≤ nodes := by
  simp only [quorumProblems]
  split_ifs <;> simp <;> omega

/-- What has been seen keeps out of the rest what is seen first. -/
lemma nodup_cons_and_disjoint_iff {α : Type} {x : α} {seen rest : List α} :
    (x :: rest).Nodup ∧ (x :: rest).Disjoint seen ↔
      x ∉ seen ∧ rest.Nodup ∧ rest.Disjoint (x :: seen) := by
  rw [List.nodup_cons, List.disjoint_cons_left, List.disjoint_cons_right]
  tauto

/-- Nothing is wrong with replicas if they have names and addresses, and differ
from one another and from those before them. -/
lemma nodeProblems_eq_nil_iff {ids endpoints : List String} {nodes : List NodeConfig} :
    nodeProblems ids endpoints nodes = [] ↔
      (∀ n ∈ nodes, n.id ≠ "" ∧ n.address ≠ "") ∧
      ((nodes.map NodeConfig.id).Nodup ∧ (nodes.map NodeConfig.id).Disjoint ids) ∧
      (nodes.map (·.endpoint.text)).Nodup ∧ (nodes.map (·.endpoint.text)).Disjoint endpoints := by
  induction nodes generalizing ids endpoints with
  | nil => simp [nodeProblems]
  | cons n rest ih =>
    simp only [nodeProblems, List.append_eq_nil_iff, ite_eq_right_iff, List.cons_ne_nil, imp_false,
      not_or, ih, List.map_cons, nodup_cons_and_disjoint_iff, List.forall_mem_cons]
    tauto

/-- Endpoints differ exactly if their texts do. -/
lemma nodup_map_text_iff {nodes : List NodeConfig} :
    (nodes.map (·.endpoint.text)).Nodup ↔ (nodes.map NodeConfig.endpoint).Nodup := by
  have texts : nodes.map (·.endpoint.text) = (nodes.map NodeConfig.endpoint).map Endpoint.text := by
    rw [List.map_map]
    rfl
  rw [texts, List.nodup_map_iff fun _ _ => Endpoint.text_injective]

/-- **Nothing is wrong with a configuration exactly if it is sound.** -/
theorem problems_eq_nil_iff {c : Config} : c.problems = [] ↔ c.Sound := by
  simp only [problems, List.append_eq_nil_iff, ite_eq_right_iff, List.cons_ne_nil, imp_false,
    nodeProblems_eq_nil_iff, nodup_map_text_iff, List.disjoint_nil_right, and_true]
  constructor
  · rintro ⟨⟨⟨⟨nodes, write⟩, read⟩, timeout⟩, named, ids, ring⟩
    have hnodes : 0 < c.nodes.length := List.length_pos_iff.mpr nodes
    exact ⟨nodes, (quorumProblems_eq_nil_iff hnodes _ _).mp write,
      (quorumProblems_eq_nil_iff hnodes _ _).mp read, Nat.pos_of_ne_zero timeout, named, ids, ring⟩
  · intro h
    have hnodes : 0 < c.nodes.length := List.length_pos_iff.mpr h.nodes
    exact ⟨⟨⟨⟨h.nodes, (quorumProblems_eq_nil_iff hnodes _ _).mpr h.write⟩,
      (quorumProblems_eq_nil_iff hnodes _ _).mpr h.read⟩, Nat.ne_of_gt h.timeout⟩, h.named, h.ids,
      h.ring⟩

/-! ### Which replicas are reported -/

/-- What is wrong with a replica, given those at earlier positions. -/
def problemsOf (earlier : List NodeConfig) (n : NodeConfig) : List Problem :=
  (if n.id = "" ∨ n.address = "" then [.emptyField n.endpoint.text] else []) ++
  (if n.id ∈ earlier.map NodeConfig.id then [.duplicateId n.id] else []) ++
  (if n.endpoint ∈ earlier.map NodeConfig.endpoint then [.duplicateEndpoint n.endpoint.text]
    else [])

/-- The replicas that have something in common with one at an earlier position, in order. -/
def repeats {α : Type} [DecidableEq α] (f : NodeConfig → α) (nodes : List NodeConfig) :
    List NodeConfig :=
  (nodes.zipIdx.filter fun p => f p.1 ∈ (nodes.take p.2).map f).map Prod.fst

/-- The last replica is looked at after all the others. -/
lemma nodeProblems_concat (ids endpoints : List String) (nodes : List NodeConfig)
    (n : NodeConfig) :
    nodeProblems ids endpoints (nodes ++ [n]) = nodeProblems ids endpoints nodes ++
      nodeProblems ((nodes.map NodeConfig.id).reverse ++ ids)
        ((nodes.map (·.endpoint.text)).reverse ++ endpoints) [n] := by
  induction nodes generalizing ids endpoints with
  | nil => rfl
  | cons m rest ih => simp [nodeProblems, ih]

/-- A text is among those of some endpoints if its endpoint is among these. -/
lemma text_mem_iff {e : Endpoint} {nodes : List NodeConfig} :
    e.text ∈ nodes.map (·.endpoint.text) ↔ e ∈ nodes.map NodeConfig.endpoint := by
  simp only [List.mem_map]
  exact exists_congr fun n => and_congr_right fun _ =>
    ⟨fun h => Endpoint.text_injective h, congrArg Endpoint.text⟩

/-- **What is wrong with replicas** is what is wrong with each of them, given those at
earlier positions. -/
theorem nodeProblems_eq_flatMap (nodes : List NodeConfig) :
    nodeProblems [] [] nodes = nodes.zipIdx.flatMap fun p => problemsOf (nodes.take p.2) p.1 := by
  induction nodes using List.reverseRecOn with
  | nil => rfl
  | append_singleton nodes n ih =>
    have hlast : nodeProblems ((nodes.map NodeConfig.id).reverse ++ [])
        ((nodes.map (·.endpoint.text)).reverse ++ []) [n] = problemsOf nodes n := by
      simp only [nodeProblems, problemsOf, List.append_nil, List.mem_reverse, text_mem_iff]
    -- a replica that is added at the end is earlier than none of the others
    have hbefore : ∀ p ∈ nodes.zipIdx,
        problemsOf ((nodes ++ [n]).take p.2) p.1 = problemsOf (nodes.take p.2) p.1 := fun p hp => by
      rw [List.take_append_of_le_length (List.snd_lt_of_mem_zipIdx hp).le]
    rw [nodeProblems_concat, hlast, ih, List.zipIdx_append, List.flatMap_append,
      List.flatMap_congr hbefore]
    simp

/-- Of the replicas one is reported for each that meets a condition, in order. -/
lemma flatMap_ite_singleton {α β : Type} (c : α → Prop) [DecidablePred c] (g : α → β)
    (l : List α) : l.flatMap (fun a => if c a then [g a] else []) = (l.filter c).map g := by
  induction l with
  | nil => rfl
  | cons a rest ih =>
    by_cases ha : c a
    · simp [ha, ih]
    · simp [ha, ih]

/-- What is said of replicas in one respect, if it is not said of settings. -/
lemma filterMap_problems {report : Problem → Option String} (condition : NodeConfig × ℕ → Prop)
    [DecidablePred condition] (name : NodeConfig → String) (c : Config)
    (hsettings : report .noNodes = none ∧ report .zeroTimeout = none ∧
      (∀ setting, report (.zeroQuorum setting) = none) ∧
      ∀ setting value nodes, report (.quorumTooLarge setting value nodes) = none)
    (hnodes : ∀ p : NodeConfig × ℕ, (problemsOf (c.nodes.take p.2) p.1).filterMap report =
      if condition p then [name p.1] else []) :
    c.problems.filterMap report =
      ((c.nodes.zipIdx.filter condition).map Prod.fst).map name := by
  obtain ⟨hnone, htimeout, hzero, hlarge⟩ := hsettings
  have hquorum : ∀ setting value,
      (quorumProblems c.nodes.length setting value).filterMap report = [] := fun setting value => by
    rw [quorumProblems]
    split_ifs <;> simp [hzero, hlarge]
  have hempty : (if c.nodes = [] then [Problem.noNodes] else []).filterMap report = [] := by
    split_ifs <;> simp [hnone]
  have htime : (if c.timeout = 0 then [Problem.zeroTimeout] else []).filterMap report = [] := by
    split_ifs <;> simp [htimeout]
  rw [problems, List.filterMap_append, List.filterMap_append, List.filterMap_append,
    List.filterMap_append, hempty, hquorum, hquorum, htime, nodeProblems_eq_flatMap,
    List.filterMap_flatMap]
  simp only [hnodes, flatMap_ite_singleton, List.nil_append, List.map_map, Function.comp_def]

/-- A quorum of a configuration. -/
def quorum (c : Config) : QuorumSetting → ℕ
  | .write => c.writeQuorum
  | .read => c.readQuorum

lemma mem_quorumProblems_iff {p : Problem} {nodes value : ℕ} {setting : QuorumSetting} :
    p ∈ quorumProblems nodes setting value ↔ p = .zeroQuorum setting ∧ value = 0 ∨
      p = .quorumTooLarge setting value nodes ∧ 0 < nodes ∧ nodes < value := by
  rw [quorumProblems]
  split_ifs with hzero hlarge
  · simp [hzero]
  · simp [hzero, hlarge]
  · simp [hzero, hlarge]

/-- What is not said of replicas is said of settings, if at all. -/
lemma mem_problems_iff {p : Problem} (hp : ∀ earlier n, p ∉ problemsOf earlier n) (c : Config) :
    p ∈ c.problems ↔ p = .noNodes ∧ c.nodes = [] ∨ p = .zeroTimeout ∧ c.timeout = 0 ∨
      ∃ setting, p ∈ quorumProblems c.nodes.length setting (c.quorum setting) := by
  have hnodes : p ∉ nodeProblems [] [] c.nodes := by
    rw [nodeProblems_eq_flatMap, List.mem_flatMap]
    rintro ⟨q, -, hq⟩
    exact hp _ _ hq
  have hsettings : (∃ setting, p ∈ quorumProblems c.nodes.length setting (c.quorum setting)) ↔
      p ∈ quorumProblems c.nodes.length .write c.writeQuorum ∨
        p ∈ quorumProblems c.nodes.length .read c.readQuorum := by
    constructor
    · rintro ⟨_ | _, h⟩
      · exact .inl h
      · exact .inr h
    · rintro (h | h)
      · exact ⟨.write, h⟩
      · exact ⟨.read, h⟩
  simp only [problems, List.mem_append, hnodes, or_false, List.mem_ite_nil_right,
    List.mem_singleton, hsettings]
  tauto

end Config

namespace Problem

/-- The endpoint of a replica that is reported for a name or an address that is missing. -/
def emptyField? : Problem → Option String
  | emptyField endpoint => some endpoint
  | _ => none

/-- The name of a replica that is reported because an earlier one has it. -/
def duplicateId? : Problem → Option String
  | duplicateId id => some id
  | _ => none

/-- The endpoint of a replica that is reported because an earlier one has it. -/
def duplicateEndpoint? : Problem → Option String
  | duplicateEndpoint endpoint => some endpoint
  | _ => none

end Problem

namespace Config

/-- **What is reported.**  Nothing is reported of a configuration exactly if it is sound.
Whatever else is reported of it, the repeated names are those of all replicas that have the
name of an earlier one, in the order of the ring; the repeated endpoints those of all that
listen where an earlier one does; and the replicas with a field missing are all that have no
name or no address.  Each setting that is wrong is reported as well. -/
theorem problems_of_nodes (c : Config) :
    (c.problems = [] ↔ c.Sound) ∧
    c.problems.filterMap Problem.duplicateId? =
      (repeats NodeConfig.id c.nodes).map NodeConfig.id ∧
    c.problems.filterMap Problem.duplicateEndpoint? =
      (repeats NodeConfig.endpoint c.nodes).map (·.endpoint.text) ∧
    c.problems.filterMap Problem.emptyField? =
      (c.nodes.filter fun n => n.id = "" ∨ n.address = "").map (·.endpoint.text) ∧
    (.noNodes ∈ c.problems ↔ c.nodes = []) ∧ (.zeroTimeout ∈ c.problems ↔ c.timeout = 0) ∧
    ∀ setting, (.zeroQuorum setting ∈ c.problems ↔ c.quorum setting = 0) ∧
      ∀ value nodes, .quorumTooLarge setting value nodes ∈ c.problems ↔
        value = c.quorum setting ∧ nodes = c.nodes.length ∧ 0 < nodes ∧ nodes < value := by
  refine ⟨problems_eq_nil_iff, ?_, ?_, ?_, ?_, ?_, fun setting => ⟨?_, fun value nodes => ?_⟩⟩
  · refine filterMap_problems _ NodeConfig.id c ⟨rfl, rfl, fun _ => rfl, fun _ _ _ => rfl⟩
      fun p => ?_
    rw [problemsOf]
    split_ifs <;> rfl
  · refine filterMap_problems _ (·.endpoint.text) c ⟨rfl, rfl, fun _ => rfl, fun _ _ _ => rfl⟩
      fun p => ?_
    rw [problemsOf]
    split_ifs <;> rfl
  · have hfilter : c.nodes.filter (fun n => n.id = "" ∨ n.address = "") =
        (c.nodes.zipIdx.filter fun p => p.1.id = "" ∨ p.1.address = "").map Prod.fst := by
      conv_lhs => rw [← List.zipIdx_map_fst 0 c.nodes, List.filter_map]
      rfl
    rw [hfilter]
    refine filterMap_problems _ (·.endpoint.text) c ⟨rfl, rfl, fun _ => rfl, fun _ _ _ => rfl⟩
      fun p => ?_
    rw [problemsOf]
    split_ifs <;> rfl
  all_goals rw [mem_problems_iff fun earlier n => by simp [problemsOf]]
  · simp [mem_quorumProblems_iff]
  · simp [mem_quorumProblems_iff]
  · simp [mem_quorumProblems_iff]
  · simp only [mem_quorumProblems_iff, reduceCtorEq, false_and, false_or,
      Problem.quorumTooLarge.injEq]
    constructor
    · rintro ⟨setting, ⟨rfl, rfl, rfl⟩, hlarge⟩
      exact ⟨rfl, rfl, hlarge⟩
    · rintro ⟨rfl, rfl, hlarge⟩
      exact ⟨setting, ⟨rfl, rfl, rfl⟩, hlarge⟩

end Config

end QuorumStore
