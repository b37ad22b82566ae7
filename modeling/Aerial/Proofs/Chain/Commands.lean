import Aerial.Proofs.Chain.Growth
import Aerial.Proofs.Link.Runs
import Aerial.Proofs.Station.Commands

/-! # Commands go down the chain in order

What the rotator of a level is made to do are its tasks, and its station has no other part in
it: a simulator works off its tasks as if there were no station around it. A link does nothing
with a request but send it on. So there is one law between two neighbours. `Owes` says which
requests are on their way, in their order: the link has executed them by sending them, and the
station before has yet to execute them. From neighbour to neighbour it follows that the
simulator executes what the last link was asked for. What a link knows and announces has no
part in this; it depends on the headings that come back. -/

namespace Aerial

/-! ## Tasks -/

theorem Response.inTurn_map {ρ σ α : Type} {f : ρ → α → Response ρ} {f' : σ → α → Response σ}
    {g : ρ → σ} (h : ∀ v a, f' (g v) a = (f v a).map g) (v : ρ) (as : List α) :
    inTurn f' (g v) as = (g (inTurn f v as).1, (inTurn f v as).2) := by
  induction as generalizing v with
  | nil => rfl
  | cons a as ih =>
    simp only [inTurn, h, map]
    rw [ih]

namespace Served

def carryOut (v : Served) : Task → Response Served
  | .request r => v.execute r
  | .move m => v.move m

def work (v : Served) (tasks : List Task) : Served × List Change :=
  Response.inTurn carryOut v tasks

theorem work_source (s : Simulator) (tasks : List Task) :
    (source s).work tasks = (source (s.work tasks).1, (s.work tasks).2) :=
  Response.inTurn_map (fun _ t => by cases t <;> rfl) s tasks

theorem work_append (v : Served) (tasks more : List Task) :
    v.work (tasks ++ more) =
      (((v.work tasks).1.work more).1, (v.work tasks).2 ++ ((v.work tasks).1.work more).2) :=
  Response.inTurn_append ..

theorem work_singleton (v : Served) (t : Task) :
    v.work [t] = ((v.carryOut t).rotator, (v.carryOut t).changes) := Response.inTurn_singleton ..

end Served

/-! ## Tasks at a level -/

/-- The task that a deed sets the rotator. -/
def Station.task? (s : Station Served) : Deed → Option Task
  | .request r | .command r => some (.request r)
  | .message stream payload => (s.heeds stream payload).map .request
  | .move m => some (.move m)
  | .join .. | .leave .. | .hangUp .. => none

theorem Station.work_turn (s : Station Served) (t : Task) :
    ((s.perform (.turn (Served.carryOut · t))).1.rotator,
        Effect.changes (s.perform (.turn (Served.carryOut · t))).2) = s.rotator.work [t] := by
  rw [Served.work_singleton]
  exact Prod.ext rfl (Effect.changes_map_changed _)

theorem Station.work_deed (s : Station Served) (d : Deed) :
    ((s.perform d.action).1.rotator, Effect.changes (s.perform d.action).2) =
      s.rotator.work (s.task? d).toList := by
  cases d with
  | message stream payload =>
    obtain ⟨hstation, hchanges, -⟩ := s.message_obeys stream payload
    simp only [Deed.action, perform, hstation, hchanges, task?]
    cases s.heeds stream payload with
    | none => rfl
    | some r => rfl
  | request r => exact s.work_turn (.request r)
  | command r =>
    rw [Deed.command_action]
    exact s.work_turn (.request r)
  | move m => exact s.work_turn (.move m)
  | join t c =>
    obtain ⟨hrotator, hchanges⟩ := s.rotator_perform (a := .join t c) (by simp) (by simp)
    exact Prod.ext hrotator hchanges
  | leave t c =>
    obtain ⟨hrotator, hchanges⟩ := s.rotator_perform (a := .leave t c) (by simp) (by simp)
    exact Prod.ext hrotator hchanges
  | hangUp stream fault =>
    obtain ⟨hrotator, hchanges⟩ := s.rotator_perform (a := .hangUp stream fault) (by simp) (by simp)
    exact Prod.ext hrotator hchanges

namespace Level

/-- The rotator of a level has done these tasks and announced what came of them. -/
def Works (l : Level) (tasks : List Task) (m : Level) : Prop :=
  m.station.rotator = (l.station.rotator.work tasks).1 ∧
    m.record.told = l.record.told ++ (l.station.rotator.work tasks).2

theorem Works.of_still {l m : Level} (h : l.Still m) : l.Works [] m :=
  ⟨h.1, h.2.trans (List.append_nil _).symm⟩

theorem Works.refl (l : Level) : l.Works [] l := .of_still ⟨rfl, rfl⟩

theorem Works.trans {l m n : Level} {tasks more : List Task} (h : l.Works tasks m)
    (h' : m.Works more n) : l.Works (tasks ++ more) n := by
  obtain ⟨hrotator, htold⟩ := h
  obtain ⟨hrotator', htold'⟩ := h'
  rw [Works, Served.work_append, hrotator', htold', hrotator, htold, List.append_assoc]
  exact ⟨rfl, rfl⟩

theorem works_deed (l : Level) (d : Deed) :
    l.Works (l.station.task? d).toList (l.perform d.action) := by
  have hdeed := l.station.work_deed d
  refine ⟨congrArg Prod.fst hdeed, ?_⟩
  rw [perform, Record.told_append, Record.told_map_effect]
  exact congrArg (l.record.told ++ ·) (congrArg Prod.snd hdeed)

/-- The request that a frame of the guest makes a level execute. -/
def heeds (l : Level) (payload : Option Octets) : Option Request :=
  match l.guest, payload with
  | some g, some payload => l.station.heeds g.stream payload
  | _, _ => none

theorem works_obey (l : Level) (payload : Option Octets) :
    l.Works ((l.heeds payload).map .request).toList (l.obey payload) := by
  unfold heeds obey
  cases l.guest with
  | none => exact .refl l
  | some g =>
    cases payload with
    | none => exact .refl l
    | some payload => exact l.works_deed (.message g.stream payload)

end Level

namespace Chain
open Level

variable {k : Nat}

/-- The task that a step sets the rotator of a level. -/
def task? (c : Chain k) (n : Fin (k + 1)) : Step k → Option Task
  | .deed i d => if i = n then (c n).station.task? d else none
  | .forward j =>
    if j.castSucc = n then ((c n).heeds (c j.succ).outgoing?).map .request else none
  | .publish _ | .pump _ | .pass .. | .deliver _ => none

/-- The tasks of the rotator of a level in a run. -/
def tasks (c : Chain k) (n : Fin (k + 1)) : List (Step k) → List Task
  | [] => []
  | s :: steps => (c.task? n s).toList ++ (c.step s).tasks n steps

/-- Unless it hears a frame, a rotator does its task in a step and nothing else. -/
theorem works_step {c : Chain k} {n : Fin (k + 1)} (s : Step k)
    (hears : ∀ j, s = .deliver j → n ≠ j.succ) : (c n).Works (c.task? n s).toList (c.step s n) := by
  have hrefl : (c n).Works [] (c n) := .refl (c n)
  cases s with
  | deed i d =>
    by_cases hi : i = n
    · subst hi
      rw [task?, if_pos rfl, step, Function.update_self]
      exact works_deed (c i) d
    · rw [task?, if_neg hi, step, Function.update_of_ne (Ne.symm hi)]
      exact hrefl
  | publish i => exact update_of hrefl fun hi => hi ▸ .of_still (still_publish _)
  | pump i => exact update_of hrefl fun hi => hi ▸ .of_still (still_pump _)
  | pass i failing => exact update_of hrefl fun hi => hi ▸ .of_still (still_pass failing _)
  | deliver j =>
    refine update_of (update_of hrefl fun hi => hi ▸ .of_still (still_handOver _)) fun hi => ?_
    exact absurd hi (hears j rfl)
  | forward j =>
    by_cases hj : j.castSucc = n
    · subst hj
      rw [task?, if_pos rfl, step, Function.update_of_ne (castSucc_ne_succ j), Function.update_self]
      exact works_obey _ _
    · rw [task?, if_neg hj]
      refine update_of ?_ fun hi => hi ▸ .of_still (still_carry _)
      rw [Function.update_of_ne (Ne.symm hj)]
      exact hrefl

theorem tasks_append (c : Chain k) (n : Fin (k + 1)) (before later : List (Step k)) :
    c.tasks n (before ++ later) = c.tasks n before ++ (c.run before).tasks n later := by
  induction before generalizing c with
  | nil => rfl
  | cons s before ih =>
    simp only [List.cons_append, tasks, ih, run_cons, List.append_assoc]

/-- The first level has no neighbour to hear frames from. -/
theorem works_run (c : Chain k) (steps : List (Step k)) :
    (c 0).Works (c.tasks 0 steps) (c.run steps 0) := by
  induction steps generalizing c with
  | nil => exact .refl _
  | cons s steps ih =>
    exact (works_step s fun j _ => (Fin.succ_ne_zero j).symm).trans (ih (c.step s))

end Chain

/-! ## What comes to a link -/

namespace Link

def Input.request? : Input → Option Request
  | frame _ => none
  | request r => some r

/-- A link sends the requests it is asked for, and it sends nothing else. -/
theorem sent_take {l : Link} (isOpen : l.isOpen = true) (x : Input) :
    (l.take x).1.sent = l.sent ++ x.request?.toList.map Wire.writeRequest := by
  cases x with
  | request r =>
    simp only [take, Rotator.execute, send, isOpen, if_true]
    rfl
  | frame f =>
    rw [Input.request?, Option.toList_none, List.map_nil, List.append_nil]
    cases hf : f.ends with
    | true => rw [take_of_ends (x := .frame f) isOpen hf]
    | false => rw [take, (receive_of_goes_on isOpen hf).1]

end Link

theorem Served.work_mirror (l : Link) (t : Option Task) :
    let inputs := ((t.bind Task.request?).map Link.Input.request).toList
    (mirror l).work t.toList = (mirror (l.after inputs), l.announced inputs) := by
  cases t with
  | none => rfl
  | some t =>
    rw [Option.toList_some, work_singleton]
    cases t with
    | request r => exact Prod.ext rfl (List.append_nil _).symm
    | move m => rfl

namespace Chain
open Level

variable {k : Nat}

/-- What comes to the link of a level in a step. -/
def input? (c : Chain k) (n : Fin (k + 1)) : Step k → Option Link.Input
  | .deliver j => if j.succ = n then (c j.castSucc).wire.head?.map .frame else none
  | s => ((c.task? n s).bind Task.request?).map .request

/-- What comes to the link of a level in a run. -/
def inputs (c : Chain k) (n : Fin (k + 1)) : List (Step k) → List Link.Input
  | [] => []
  | s :: steps => (c.input? n s).toList ++ (c.step s).inputs n steps

theorem input?_of_task {c : Chain k} {n : Fin (k + 1)} {s : Step k}
    (hears : ∀ j, s = .deliver j → n ≠ j.succ) :
    c.input? n s = ((c.task? n s).bind Task.request?).map .request := by
  cases s with
  | deliver j => exact if_neg (hears j rfl).symm
  | deed i d => rfl
  | publish i => rfl
  | pump i => rfl
  | pass i failing => rfl
  | forward j => rfl

theorem mirror_step {c : Chain k} {n : Fin (k + 1)} {l : Link} (s : Step k)
    (link : (c n).station.rotator = .mirror l) :
    (c.step s n).station.rotator = .mirror (l.after (c.input? n s).toList) ∧
      (c.step s n).record.told = (c n).record.told ++ l.announced (c.input? n s).toList := by
  by_cases hears : ∀ j, s = .deliver j → n ≠ j.succ
  · obtain ⟨hrotator, htold⟩ := works_step s hears
    rw [link, Served.work_mirror, ← input?_of_task hears] at hrotator htold
    exact ⟨hrotator, htold⟩
  · simp only [not_forall, not_not] at hears
    obtain ⟨j, rfl, rfl⟩ := hears
    rw [step_deliver_succ, input?, if_pos rfl]
    cases (c j.castSucc).wire.head? with
    | none => exact ⟨link, (List.append_nil _).symm⟩
    | some f =>
      rw [rotator_hear, told_hear, link]
      refine ⟨rfl, congrArg _ ?_⟩
      exact (List.append_nil _).symm

/-- The link of a level is what it has become by what came to it. -/
theorem mirror_run {c : Chain k} {n : Fin (k + 1)} {l : Link} (steps : List (Step k))
    (link : (c n).station.rotator = .mirror l) :
    (c.run steps n).station.rotator = .mirror (l.after (c.inputs n steps)) ∧
      (c.run steps n).record.told = (c n).record.told ++ l.announced (c.inputs n steps) := by
  induction steps generalizing c l with
  | nil => exact ⟨link, (List.append_nil _).symm⟩
  | cons s steps ih =>
    obtain ⟨hrotator, htold⟩ := mirror_step s link
    obtain ⟨hrotator', htold'⟩ := ih hrotator
    rw [inputs, (l.run_append _ _).1, (l.run_append _ _).2, ← List.append_assoc, ← htold]
    exact ⟨hrotator', htold'⟩

/-- A link knows and echoes the headings it has heard. The requests among what came to it do
not count. -/
theorem info_run {c : Chain k} {n : Fin (k + 1)} {l : Link} (steps : List (Step k))
    (link : (c n).station.rotator = .mirror l) (isOpen : l.isOpen = true) :
    (c.run steps n).info = l.info.heard (Link.statuses (c.inputs n steps)) ∧
      (c.run steps n).record.told =
        (c n).record.told ++ l.info.echoed (Link.statuses (c.inputs n steps)) := by
  obtain ⟨hrotator, htold⟩ := mirror_run steps link
  obtain ⟨hinfo, hannounced, -⟩ := Link.run_of_open isOpen (c.inputs n steps)
  rw [Level.info, hrotator, htold, hannounced]
  exact ⟨hinfo, rfl⟩

end Chain

/-! ## What is on its way to the station before -/

namespace Served

/-- A link whose connection is up. -/
def isLinked : Served → Bool
  | source _ => false
  | mirror l => l.isOpen

/-- The frames that a rotator has sent. -/
def sent : Served → List Octets
  | source _ => []
  | mirror l => l.sent

end Served

namespace Level

/-- The station listens to the guest. -/
def attends (l : Level) : Bool :=
  match l.guest with
  | none => false
  | some g => (l.station.reader? g.stream).isSome

/-- Everything that the link has sent has arrived. -/
def Delivered (l : Level) : Prop := l.carried = l.station.rotator.sent.length

instance (l : Level) : Decidable l.Delivered := inferInstanceAs (Decidable (_ = _))

/-- The frames that the link has sent and that have not arrived make up these requests. -/
def Owes (l : Level) (rs : List Request) : Prop :=
  ∃ arrived, arrived.length = l.carried ∧
    l.station.rotator.sent = arrived ++ rs.map Wire.writeRequest

theorem Delivered.owes {l : Level} (h : l.Delivered) : l.Owes [] :=
  ⟨l.station.rotator.sent, h.symm, (List.append_nil _).symm⟩

theorem Owes.eq_nil {l : Level} {rs : List Request} (h : l.Owes rs) (delivered : l.Delivered) :
    rs = [] := by
  obtain ⟨arrived, hcarried, hsent⟩ := h
  rw [Delivered, hsent, ← hcarried, List.length_append, List.length_map] at delivered
  exact List.eq_nil_of_length_eq_zero (by omega)

theorem outgoing?_eq (l : Level) : l.outgoing? = l.station.rotator.sent[l.carried]? := by
  unfold outgoing? Served.sent
  cases l.station.rotator with
  | source s => rfl
  | mirror m => rfl

theorem Owes.outgoing? {l : Level} {rs : List Request} (h : l.Owes rs) :
    l.outgoing? = rs.head?.map Wire.writeRequest := by
  obtain ⟨arrived, hcarried, hsent⟩ := h
  rw [outgoing?_eq, hsent, ← hcarried, List.getElem?_append_right (Nat.le_refl _), Nat.sub_self,
    ← List.head?_eq_getElem?, List.head?_map]

/-- The next request arrives. -/
theorem Owes.carry {l : Level} {rs : List Request} (h : l.Owes rs) : l.carry.Owes rs.tail := by
  unfold Level.carry
  rw [h.outgoing?]
  obtain ⟨arrived, hcarried, hsent⟩ := h
  cases rs with
  | nil => exact ⟨arrived, hcarried, hsent⟩
  | cons r rs =>
    refine ⟨arrived ++ [Wire.writeRequest r], by simp [hcarried], ?_⟩
    dsimp only [Option.map, List.head?]
    rw [hsent]
    simp

theorem carried_publish (l : Level) : l.publish.carried = l.carried := by
  unfold publish
  split <;> rfl

theorem carried_pump (l : Level) : l.pump.carried = l.carried := by
  unfold pump
  split <;> rfl

theorem carried_pass (failing : ClientId → Option Fault) (l : Level) :
    (l.pass failing).carried = l.carried := by
  unfold pass
  split <;> rfl

theorem carried_handOver (l : Level) : l.handOver.carried = l.carried := by
  unfold handOver
  split <;> rfl

theorem carried_hear (f : Option Frame) (l : Level) : (l.hear f).carried = l.carried := by
  unfold hear
  split <;> rfl

theorem carried_obey (payload : Option Octets) (l : Level) :
    (l.obey payload).carried = l.carried := by
  unfold obey
  split <;> rfl

/-- A request that arrives where it is listened to is executed. -/
theorem Owes.heeds {l m : Level} {rs : List Request} (h : m.Owes rs) (attends : l.attends = true) :
    l.heeds m.outgoing? = rs.head? := by
  rw [h.outgoing?]
  unfold Level.attends at attends
  unfold Level.heeds
  cases hg : l.guest with
  | none =>
    rw [hg] at attends
    cases attends
  | some g =>
    rw [hg] at attends
    obtain ⟨x, hx⟩ := Option.isSome_iff_exists.mp attends
    cases rs with
    | nil => rfl
    | cons r rs =>
      dsimp only [List.head?, Option.map]
      rw [Station.heeds, hx, Option.bind_some, Station.command?_writeRequest]

end Level

namespace Chain
open Level

variable {k : Nat}

/-- Where a step makes the rotator execute a request that does not come from another station of
the chain, or may do so. -/
def Step.asks? : Step k → Option (Fin (k + 1))
  | .deed i (.request _) | .deed i (.command _) | .deed i (.message ..) => some i
  | _ => none

def Step.move? : Step k → Option Simulator.Move
  | .deed i (.move m) => if i = 0 then some m else none
  | _ => none

/-- The request that a step makes the rotator of a level execute. -/
def request? (c : Chain k) (n : Fin (k + 1)) (s : Step k) : Option Request :=
  (c.task? n s).bind Task.request?

/-- The requests that the rotator of a level executes in a run. -/
def requests (c : Chain k) (n : Fin (k + 1)) (steps : List (Step k)) : List Request :=
  (c.tasks n steps).filterMap Task.request?

theorem requests_cons (c : Chain k) (n : Fin (k + 1)) (s : Step k) (steps : List (Step k)) :
    c.requests n (s :: steps) = (c.request? n s).toList ++ (c.step s).requests n steps := by
  rw [requests, tasks, List.filterMap_append, request?, requests]
  cases c.task? n s with
  | none => rfl
  | some t => cases t <;> rfl

/-- Every link is connected, and the station before it listens to it. -/
def Up (c : Chain k) : Prop :=
  ∀ i : Fin k, (c i.succ).station.rotator.isLinked = true ∧ (c i.castSucc).attends = true

instance (c : Chain k) : Decidable c.Up := inferInstanceAs (Decidable (∀ _ : Fin k, _ ∧ _))

/-- The connections are up all through a run. -/
def StaysUp : Chain k → List (Step k) → Prop
  | c, [] => c.Up
  | c, s :: steps => c.Up ∧ (c.step s).StaysUp steps

theorem StaysUp.up {c : Chain k} {steps : List (Step k)} (h : c.StaysUp steps) : c.Up := by
  cases steps with
  | nil => exact h
  | cons s steps => exact h.1

instance decidableStaysUp (c : Chain k) (steps : List (Step k)) : Decidable (c.StaysUp steps) :=
  match steps with
  | [] => inferInstanceAs (Decidable c.Up)
  | s :: steps =>
    have := decidableStaysUp (c.step s) steps
    inferInstanceAs (Decidable (c.Up ∧ (c.step s).StaysUp steps))

theorem request?_eq_input? (c : Chain k) (n : Fin (k + 1)) (s : Step k) :
    c.request? n s = (c.input? n s).bind Link.Input.request? := by
  by_cases hears : ∀ j, s = .deliver j → n ≠ j.succ
  · rw [input?_of_task hears, request?]
    cases (c.task? n s).bind Task.request? <;> rfl
  · simp only [not_forall, not_not] at hears
    obtain ⟨j, rfl, rfl⟩ := hears
    rw [input?, if_pos rfl]
    cases (c j.castSucc).wire.head? <;> rfl

/-- A link that is connected sends what its level executes. -/
theorem sent_step {c : Chain k} {n : Fin (k + 1)} (linked : (c n).station.rotator.isLinked = true)
    (s : Step k) :
    (c.step s n).station.rotator.sent =
      (c n).station.rotator.sent ++ (c.request? n s).toList.map Wire.writeRequest := by
  cases hlink : (c n).station.rotator with
  | source _ =>
    rw [hlink] at linked
    cases linked
  | mirror l =>
    rw [hlink] at linked
    rw [(mirror_step s hlink).1, request?_eq_input?]
    cases c.input? n s with
    | none => exact (List.append_nil _).symm
    | some x => exact Link.sent_take linked x

theorem carried_update {c : Chain k} {n a : Fin (k + 1)} {l : Level}
    (h : l.carried = (c a).carried) : (Function.update c a l n).carried = (c n).carried :=
  update_of (P := fun m => m.carried = (c n).carried) rfl fun hn => hn ▸ h

theorem carried_step {c : Chain k} {i : Fin k} {s : Step k} (h : s ≠ .forward i) :
    (c.step s i.succ).carried = (c i.succ).carried := by
  cases s with
  | deed j d => exact carried_update rfl
  | publish j => exact carried_update (carried_publish _)
  | pump j => exact carried_update (carried_pump _)
  | pass j failing => exact carried_update (carried_pass failing _)
  | deliver j =>
    have hands : ∀ n, (Function.update c j.castSucc (c j.castSucc).handOver n).carried
        = (c n).carried := fun n => carried_update (carried_handOver _)
    exact (carried_update ((carried_hear _ _).trans (hands _).symm)).trans (hands _)
  | forward j =>
    have hj : i.succ ≠ j.succ := fun hj => h (congrArg Step.forward (Fin.succ_inj.mp hj).symm)
    rw [step, Function.update_of_ne hj]
    exact carried_update (carried_obey _ _)

/-- At a level that nobody asks directly requests are executed as they arrive. -/
theorem request?_of_indirect {c : Chain k} {i : Fin k} {s : Step k}
    (direct : s.asks? ≠ some i.castSucc) (h : s ≠ .forward i) : c.request? i.castSucc s = none := by
  cases s with
  | deed j d =>
    rw [request?, task?]
    split
    · rename_i hj
      subst hj
      cases d with
      | request r | command r => exact absurd rfl direct
      | message stream payload => exact absurd rfl direct
      | move m => rfl
      | join t c => rfl
      | leave t c => rfl
      | hangUp stream fault => rfl
    · rfl
  | forward j =>
    rw [request?, task?, if_neg]
    · rfl
    · exact fun hj => h (congrArg Step.forward (Fin.castSucc_inj.mp hj))
  | publish j => rfl
  | pump j => rfl
  | pass j failing => rfl
  | deliver j => rfl

/-- What is on its way comes before what is sent, and nothing gets lost. -/
theorem owes_step {c : Chain k} (up : c.Up) {i : Fin k} {s : Step k}
    (direct : s.asks? ≠ some i.castSucc) {rs : List Request} (owes : (c i.succ).Owes rs) :
    ∃ rs', (c.step s i.succ).Owes rs' ∧
      rs ++ (c.request? i.succ s).toList = (c.request? i.castSucc s).toList ++ rs' := by
  by_cases hs : s = .forward i
  · subst hs
    have hnear : c.request? i.castSucc (.forward i) = rs.head? := by
      rw [request?, task?, if_pos rfl, owes.heeds (up i).2]
      cases rs.head? <;> rfl
    have hfar : c.request? i.succ (.forward i) = none := by
      rw [request?, task?, if_neg (castSucc_ne_succ i)]
      rfl
    have hcarry : c.step (.forward i) i.succ = (c i.succ).carry := Function.update_self ..
    refine ⟨rs.tail, hcarry ▸ owes.carry, ?_⟩
    rw [hnear, hfar]
    cases rs <;> simp
  · obtain ⟨arrived, hcarried, hsent⟩ := owes
    refine ⟨rs ++ (c.request? i.succ s).toList, ⟨arrived, ?_, ?_⟩, ?_⟩
    · rw [carried_step hs, hcarried]
    · rw [sent_step (up i).1, hsent, List.map_append, List.append_assoc]
    · rw [request?_of_indirect direct hs]
      rfl

theorem owes_run {c : Chain k} {steps : List (Step k)} (up : c.StaysUp steps) {i : Fin k}
    (direct : ∀ s ∈ steps, s.asks? ≠ some i.castSucc) {rs : List Request}
    (owes : (c i.succ).Owes rs) :
    ∃ rs', (c.run steps i.succ).Owes rs' ∧
      rs ++ c.requests i.succ steps = c.requests i.castSucc steps ++ rs' := by
  induction steps generalizing c rs with
  | nil => exact ⟨rs, owes, List.append_nil rs⟩
  | cons s steps ih =>
    obtain ⟨hup, hlater⟩ := up
    obtain ⟨rs₁, howes, hstep⟩ := owes_step hup (direct s List.mem_cons_self) owes
    obtain ⟨rs', howes', hrun⟩ := ih hlater (fun t ht => direct t (List.mem_cons_of_mem s ht)) howes
    refine ⟨rs', howes', ?_⟩
    calc rs ++ c.requests i.succ (s :: steps)
      _ = (rs ++ (c.request? i.succ s).toList) ++ (c.step s).requests i.succ steps := by
        rw [requests_cons, List.append_assoc]
      _ = (c.request? i.castSucc s).toList ++ (rs₁ ++ (c.step s).requests i.succ steps) := by
        rw [hstep, List.append_assoc]
      _ = c.requests i.castSucc (s :: steps) ++ rs' := by
        rw [hrun, requests_cons, List.append_assoc]

/-- The first station executes requests in the order in which any later one did. -/
theorem requests_isPrefix {c : Chain k} {steps : List (Step k)}
    (idle : ∀ i : Fin k, (c i.succ).Delivered) (up : c.StaysUp steps)
    (direct : ∀ s ∈ steps, ∀ i ∈ s.asks?, i = Fin.last k) (n : Fin (k + 1)) :
    c.requests 0 steps <+: c.requests n steps ∧
      ((∀ i : Fin k, (c.run steps i.succ).Delivered) → c.requests 0 steps = c.requests n steps) := by
  induction n using Fin.induction with
  | zero => exact ⟨List.prefix_refl _, fun _ => rfl⟩
  | succ i ih =>
    have hdirect : ∀ s ∈ steps, s.asks? ≠ some i.castSucc := fun s hs hasks =>
      Fin.ne_of_lt (Fin.castSucc_lt_last i) (direct s hs _ hasks)
    obtain ⟨rs, howes, hrequests⟩ := owes_run up hdirect (idle i).owes
    rw [List.nil_append] at hrequests
    refine ⟨ih.1.trans ⟨rs, hrequests.symm⟩, fun delivered => ?_⟩
    rw [ih.2 delivered, hrequests, howes.eq_nil (delivered i), List.append_nil]

theorem move?_task (c : Chain k) (s : Step k) : (c.task? 0 s).bind Task.move? = s.move? := by
  cases s with
  | deed i d =>
    by_cases hi : i = 0
    · rw [task?, if_pos hi]
      cases d with
      | message stream payload =>
        rw [Station.task?]
        cases (c 0).station.heeds stream payload <;> rfl
      | move m => exact (if_pos hi).symm
      | request r | command r => rfl
      | join t x => rfl
      | leave t x => rfl
      | hangUp stream fault => rfl
    · rw [task?, if_neg hi]
      cases d with
      | move m => exact (if_neg hi).symm
      | message stream payload => rfl
      | request r | command r => rfl
      | join t x => rfl
      | leave t x => rfl
      | hangUp stream fault => rfl
  | forward j =>
    rw [task?]
    split
    · cases (c 0).heeds (c j.succ).outgoing? <;> rfl
    · rfl
  | publish i => rfl
  | pump i => rfl
  | pass i failing => rfl
  | deliver j => rfl

/-- The moves among the tasks of the simulator are those that happen in the run. -/
theorem moves_tasks (c : Chain k) (steps : List (Step k)) :
    (c.tasks 0 steps).filterMap Task.move? = steps.filterMap Step.move? := by
  induction steps generalizing c with
  | nil => rfl
  | cons s steps ih =>
    rw [tasks, List.filterMap_append, ih, Record.filterMap_cons_toList, ← move?_task c s]
    cases c.task? 0 s with
    | none => rfl
    | some t => cases t <;> rfl

/-- Requests are made at the last station, by its clients or without them, as a whole or by the one
command that each is for, and moves of the simulator, pushes and deliveries come in between at
will. The simulator goes through the states of one that carries out the requests on its own, in the
order in which they were made, and announces the same changes; it has carried out all of them when
all have arrived. No link changes or announces anything but for the headings that it hears from the
station before it. -/
theorem forwarded_eq_direct {c : Chain k} {s : Simulator} {steps : List (Step k)}
    (source : (c 0).station.rotator = .source s) (idle : ∀ i : Fin k, (c i.succ).Delivered)
    (up : c.StaysUp steps) (direct : ∀ t ∈ steps, ∀ i ∈ t.asks?, i = Fin.last k) :
    let tasks := c.tasks 0 steps
    let asked := c.requests (Fin.last k) steps
    (∀ before, before <+: steps → c.tasks 0 before <+: tasks ∧
      (c.run before 0).station.rotator = .source (s.work (c.tasks 0 before)).1 ∧
      (c.run before 0).record.told = (c 0).record.told ++ (s.work (c.tasks 0 before)).2) ∧
    tasks.filterMap Task.move? = steps.filterMap Step.move? ∧
    tasks.filterMap Task.request? <+: asked ∧
    ((∀ i : Fin k, (c.run steps i.succ).Delivered) → tasks.filterMap Task.request? = asked) ∧
    ∀ (i : Fin k) (l : Link), (c i.succ).station.rotator = .mirror l →
      (c.run steps i.succ).info = l.info.heard (Link.statuses (c.inputs i.succ steps)) ∧
      (c.run steps i.succ).record.told =
        (c i.succ).record.told ++ l.info.echoed (Link.statuses (c.inputs i.succ steps)) := by
  intro tasks asked
  obtain ⟨hinitial, hall⟩ := requests_isPrefix idle up direct (Fin.last k)
  refine ⟨?_, c.moves_tasks steps, hinitial, hall, fun i l link => ?_⟩
  · rintro before ⟨later, rfl⟩
    obtain ⟨hrotator, htold⟩ := c.works_run before
    rw [source, Served.work_source] at hrotator htold
    exact ⟨⟨_, (c.tasks_append 0 before later).symm⟩, hrotator, htold⟩
  · have hopen := (up.up i).1
    rw [link] at hopen
    exact info_run steps link hopen

/-! ## Two links -/

/-- A frame of each link arrives, from the last link to the first. -/
def downwards : List (Step k) := (List.finRange k).reverse.map .forward

/-- Somebody turns the last rotator of a row and stops it again, the one by a command and the other
by a request, while the simulator moves. -/
def ordered : List (Step 2) :=
  [.deed 2 (.command (.setAzimuth 90)), .deed 0 (.move .tick)] ++ downwards
  ++ [.deed 2 (.request .stop), .deed 0 (.move .tick)] ++ downwards

theorem forwarded_eq_direct_ordered :
    row.requests 2 ordered = [.setAzimuth 90, .stop] ∧
      row.tasks 0 ordered = [.move .tick, .request (.setAzimuth 90), .move .tick, .request .stop] ∧
      (row.run ordered 0).station.rotator =
        .source ((Simulator.create .standard).work (row.tasks 0 ordered)).1 ∧
      (row.tasks 0 ordered).filterMap Task.request? = row.requests 2 ordered := by
  have h := @forwarded_eq_direct 2 row (.create .standard) ordered rfl (by decide +kernel)
    (by decide +kernel) (by decide +kernel)
  exact ⟨by decide +kernel, by decide +kernel, (h.1 ordered (List.prefix_refl _)).2.1,
    h.2.2.2.1 (by decide +kernel)⟩

end Chain

end Aerial
