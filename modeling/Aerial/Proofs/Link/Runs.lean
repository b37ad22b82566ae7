import Aerial.Proofs.Announcements

/-! # What a link makes of its stream

Frames come to a link and requests are made of it, in any order. All that counts are the
heading notices that arrive before the stream is over: the link points as the last of them
says, and whatever else it was told about its rotator at first it keeps. The first frame
that ends the stream fires the signal, and after it nothing has any effect.

What a link announces are the differences from one heading to the next. So whoever follows
the announcements always knows the state of the link, and a notice that repeats the heading
before it might as well not have come. -/

namespace Aerial

namespace Frame

/-- Whether the stream is over with this frame. -/
def ends : Frame → Bool
  | close | broken _ => true
  | text _ | binary _ | control => false

/-- The status in a frame that holds a heading notice. -/
def heading? : Frame → Option Status
  | text bytes | binary bytes =>
    match Wire.decodeNotice bytes with
    | .ok ⟨.heading, status⟩ => some status
    | _ => none
  | control | close | broken _ => none

end Frame

namespace Link

/-- What comes to a link: a frame of its stream, or a request of those it serves. -/
inductive Input where
  | frame (f : Frame)
  | request (r : Request)

namespace Input

def ends : Input → Bool
  | frame f => f.ends
  | request _ => false

def heading? : Input → Option Status
  | frame f => f.heading?
  | request _ => none

end Input

/-- The statuses that arrive in heading notices before the stream is over. -/
def statuses (inputs : List Input) : List Status :=
  (inputs.takeWhile (!·.ends)).filterMap Input.heading?

/-- The signal is to fire at the first input that ends the stream, and at no other. -/
def signalsAt (inputs : List Input) : List Signal :=
  (inputs.takeWhile (!·.ends)).map (fun _ => .pending) ++
    match inputs.dropWhile (!·.ends) with
    | [] => []
    | _ :: later => .fired :: later.map fun _ => .spent

/-! ## Runs of a link -/

/-- The link after an input, with the changes that it announces. -/
def take (l : Link) : Input → Link × List Change
  | .frame f => ((l.receive f).link, (l.receive f).changes)
  | .request r => ((Rotator.execute l r).rotator, (Rotator.execute l r).changes)

/-- The link after some inputs. -/
def after : Link → List Input → Link
  | l, [] => l
  | l, x :: inputs => (l.take x).1.after inputs

/-- The changes that a link announces at some inputs. -/
def announced : Link → List Input → List Change
  | _, [] => []
  | l, x :: inputs => (l.take x).2 ++ (l.take x).1.announced inputs

/-- How the signal stands at each of some inputs. -/
def signals : Link → List Input → List Signal
  | _, [] => []
  | l, x :: inputs => l.signal (l.take x).1 :: (l.take x).1.signals inputs

/-! ## One input -/

theorem receiveNotice_eq (l : Link) (bytes : Octets) :
    (l.receiveNotice bytes).link =
        { l with info := l.info.heard (Frame.text bytes).heading?.toList } ∧
      (l.receiveNotice bytes).changes = l.info.echoed (Frame.text bytes).heading?.toList := by
  rw [receiveNotice, Frame.heading?]
  cases Wire.decodeNotice bytes with
  | error _ => exact ⟨rfl, rfl⟩
  | ok n =>
    obtain ⟨kind, status⟩ := n
    cases kind with
    | add => exact ⟨rfl, rfl⟩
    | remove => exact ⟨rfl, rfl⟩
    | heading => exact ⟨rfl, (List.append_nil _).symm⟩

/-- Before the end a link takes over the status of a heading notice, and nothing else. -/
theorem receive_of_goes_on {l : Link} {f : Frame} (isOpen : l.isOpen = true)
    (hf : f.ends = false) :
    (l.receive f).link = { l with info := l.info.heard f.heading?.toList } ∧
      (l.receive f).changes = l.info.echoed f.heading?.toList := by
  unfold receive
  rw [if_pos isOpen]
  cases f with
  | text bytes => exact l.receiveNotice_eq bytes
  | binary bytes => exact l.receiveNotice_eq bytes
  | control => exact ⟨rfl, rfl⟩
  | close => exact absurd hf (by simp [Frame.ends])
  | broken clean => exact absurd hf (by simp [Frame.ends])

theorem take_of_goes_on {l : Link} {x : Input} (isOpen : l.isOpen = true) (hx : x.ends = false) :
    (l.take x).1.isOpen = true ∧ (l.take x).1.info = l.info.heard x.heading?.toList ∧
      (l.take x).2 = l.info.echoed x.heading?.toList := by
  cases x with
  | request r =>
    simp only [take, Rotator.execute, send, isOpen, if_true]
    exact ⟨rfl, rfl, rfl⟩
  | frame f =>
    obtain ⟨hlink, hchanges⟩ := receive_of_goes_on isOpen hx
    refine ⟨?_, ?_, hchanges⟩
    · rw [take, hlink]
      exact isOpen
    · rw [take, hlink]
      rfl

theorem take_of_ends {l : Link} {x : Input} (isOpen : l.isOpen = true) (hx : x.ends = true) :
    l.take x = ({ l with isOpen := false }, []) := by
  cases x with
  | request r => exact absurd hx (by simp [Input.ends])
  | frame f =>
    cases f with
    | text bytes => exact absurd hx (by simp [Input.ends, Frame.ends])
    | binary bytes => exact absurd hx (by simp [Input.ends, Frame.ends])
    | control => exact absurd hx (by simp [Input.ends, Frame.ends])
    | close => simp [take, receive, isOpen, shut]
    | broken clean => simp [take, receive, isOpen, shut]

theorem take_of_shut {l : Link} (shut : l.isOpen = false) (x : Input) : l.take x = (l, []) := by
  cases x with
  | request r => simp [take, Rotator.execute, send, shut, Response.refuse]
  | frame f => simp [take, receive, shut]

/-! ## Any inputs -/

theorem run_of_shut {l : Link} (shut : l.isOpen = false) (inputs : List Input) :
    l.after inputs = l ∧ l.announced inputs = [] ∧
      l.signals inputs = inputs.map fun _ => .spent := by
  induction inputs with
  | nil => exact ⟨rfl, rfl, rfl⟩
  | cons x inputs ih =>
    obtain ⟨hafter, hannounced, hsignals⟩ := ih
    have htake := take_of_shut shut x
    refine ⟨?_, ?_, ?_⟩
    · rw [after, htake, hafter]
    · rw [announced, htake, hannounced, List.append_nil]
    · rw [signals, htake, hsignals, signal, shut, List.map_cons]

/-- An open link knows and echoes the statuses that arrive before the end. -/
theorem run_of_open {l : Link} (isOpen : l.isOpen = true) (inputs : List Input) :
    (l.after inputs).info = l.info.heard (statuses inputs) ∧
      l.announced inputs = l.info.echoed (statuses inputs) ∧
      l.signals inputs = signalsAt inputs := by
  induction inputs generalizing l with
  | nil => exact ⟨rfl, rfl, rfl⟩
  | cons x inputs ih =>
    cases hx : x.ends with
    | true =>
      have htake := take_of_ends isOpen hx
      obtain ⟨hafter, hannounced, hsignals⟩ :=
        run_of_shut (l := { l with isOpen := false }) rfl inputs
      have hnone : statuses (x :: inputs) = [] := by simp [statuses, hx]
      rw [hnone]
      refine ⟨?_, ?_, ?_⟩
      · rw [after, htake, hafter]
        rfl
      · rw [announced, htake, hannounced]
        rfl
      · rw [signals, htake, hsignals, signal, isOpen]
        simp [signalsAt, hx]
    | false =>
      obtain ⟨hopen, hinfo, hchanges⟩ := take_of_goes_on isOpen hx
      obtain ⟨hafter, hannounced, hsignals⟩ := ih hopen
      have hmore : statuses (x :: inputs) = x.heading?.toList ++ statuses inputs := by
        rw [statuses, List.takeWhile_cons_of_pos (by simp [hx]), List.filterMap_cons]
        cases x.heading? <;> rfl
      rw [hmore, Info.heard_append, Info.echoed_append, ← hinfo, ← hchanges, ← hafter, ← hannounced]
      refine ⟨rfl, rfl, ?_⟩
      rw [signals, hsignals, signal, isOpen, hopen]
      simp [signalsAt, hx]

/-- A link knows its rotator as the last heading notice before the end of the stream showed it,
and in all else as it was described at first. The signal fires once, when the stream ends. -/
theorem after_mirrors (i : Info) (farewell : String) (inputs : List Input) :
    let l := opened i farewell
    (l.after inputs).info =
        { i with pointing := ((statuses inputs).getLast?.map Status.pointing).getD i.pointing } ∧
      l.signals inputs = signalsAt inputs := by
  intro l
  obtain ⟨hinfo, -, hsignals⟩ := run_of_open (l := l) rfl inputs
  have hheard := (Info.tells_echoed i (statuses inputs)).eq_pointed
  rw [Info.heard_pointing] at hheard
  exact ⟨hinfo.trans hheard, hsignals⟩

/-! ## Announcements -/

theorem run_append (l : Link) (inputs more : List Input) :
    l.after (inputs ++ more) = (l.after inputs).after more ∧
      l.announced (inputs ++ more) = l.announced inputs ++ (l.after inputs).announced more := by
  induction inputs generalizing l with
  | nil => exact ⟨rfl, rfl⟩
  | cons x inputs ih =>
    obtain ⟨hafter, hannounced⟩ := ih (l.take x).1
    refine ⟨hafter, ?_⟩
    rw [List.cons_append, announced, hannounced, announced, after, List.append_assoc]

/-- A heading that is known already leaves a link as it is. -/
theorem take_known {l : Link} {f : Frame} {s : Status} (hf : f.heading? = some s)
    (known : s.pointing = l.info.pointing) : l.take (.frame f) = (l, []) := by
  cases isOpen : l.isOpen with
  | false => exact take_of_shut isOpen _
  | true =>
    have hends : f.ends = false := by
      cases f <;> simp_all [Frame.heading?, Frame.ends]
    obtain ⟨hlink, hchanges⟩ := receive_of_goes_on isOpen hends
    rw [take, hlink, hchanges, hf, Option.toList_some, Info.heard, Info.echoed, known,
      Info.announce_self]
    rfl

end Link

/-- One change for each axis on which a rotator comes to point differently. -/
def Info.differences (i : Info) (p q : PerAxis Pointing) : List Change :=
  let status : Status := ⟨i.name, i.azimuthOverlap, q⟩
  (if p.azimuth = q.azimuth then [] else [⟨.azimuth, status⟩])
    ++ if p.elevation = q.elevation then [] else [⟨.elevation, status⟩]

theorem Info.announce_eq_differences (i : Info) (q : PerAxis Pointing) :
    i.announce q = i.differences i.pointing q := by
  unfold announce Link.changedAxes differences
  by_cases ha : i.pointing.azimuth = q.azimuth <;>
    by_cases he : i.pointing.elevation = q.elevation <;>
    simp [Axis.all, PerAxis.get, ha, he] <;> rfl

theorem Info.echoed_eq_differences (i : Info) (ss : List Status) :
    let headings := i.pointing :: ss.map Status.pointing
    i.echoed ss = (headings.zip headings.tail).flatMap fun h => i.differences h.1 h.2 := by
  intro headings
  induction ss generalizing i with
  | nil => rfl
  | cons s ss ih =>
    rw [echoed, announce_eq_differences]
    exact congrArg _ (ih (i.pointed s.pointing))

theorem foldl_status (cs : List Change) (status : Status) :
    cs.foldl (fun _ c => c.status) status = (cs.getLast?.map Change.status).getD status := by
  induction cs generalizing status with
  | nil => rfl
  | cons c cs ih =>
    rw [List.foldl_cons, ih, List.getLast?_cons]
    cases cs.getLast? <;> rfl

theorem Tells.foldl_status {i j : Info} {cs : List Change} (h : Tells i cs j) :
    cs.foldl (fun _ c => c.status) i.status = j.status := by
  rw [Aerial.foldl_status]
  rcases h.getLast with ⟨rfl, rfl⟩ | ⟨c, hlast, hstatus⟩
  · rfl
  · rw [hlast, Option.map_some, hstatus]
    rfl

namespace Link

/-- A link announces the differences from each heading it hears to the next. Whoever takes over
the status of each announcement knows the status of the link, and a notice with the heading
that the link has already makes no difference to what it announces. -/
theorem announced_eq_differences (i : Info) (farewell : String) (inputs : List Input) :
    let l := opened i farewell
    let headings := i.pointing :: (statuses inputs).map Status.pointing
    l.announced inputs =
        ((headings.zip headings.tail).flatMap fun h => i.differences h.1 h.2) ∧
      (l.announced inputs).foldl (fun _ c => c.status) i.status = (l.after inputs).info.status ∧
      ∀ before f later s, inputs = before ++ .frame f :: later → f.heading? = some s →
        s.pointing = (l.after before).info.pointing →
        l.announced (before ++ later) = l.announced inputs := by
  intro l headings
  obtain ⟨hinfo, hannounced, -⟩ := run_of_open (l := l) rfl inputs
  refine ⟨?_, ?_, ?_⟩
  · rw [hannounced]
    exact i.echoed_eq_differences (statuses inputs)
  · rw [hinfo, hannounced]
    exact (Info.tells_echoed i (statuses inputs)).foldl_status
  · rintro before f later s rfl hf known
    have hlater : (l.after before).announced (.frame f :: later)
        = (l.after before).announced later := by
      rw [announced, take_known hf known, List.nil_append]
    rw [(l.run_append before later).2, (l.run_append before _).2, hlater]

/-- A notice that the azimuth has a new preset, as it would come from a standard rotator. -/
def redirected : Input :=
  .frame (.binary (Status.headingNotice ⟨"dummyRotator", true, ⟨⟨0, 90⟩, ⟨0, 0⟩⟩⟩))

theorem announced_eq_differences_twice :
    let l := opened (Simulator.create .standard).info "over"
    l.announced [redirected, .request .stop, .frame .close]
        = l.announced [redirected, .request .stop, redirected, .frame .close] ∧
      (l.announced [redirected, .request .stop, redirected, .frame .close]).length = 1 := by
  intro l
  refine ⟨?_, by decide +kernel⟩
  exact (announced_eq_differences (Simulator.create .standard).info "over" _).2.2
    [redirected, .request .stop] _ [.frame .close] ⟨"dummyRotator", true, ⟨⟨0, 90⟩, ⟨0, 0⟩⟩⟩ rfl
    (by decide +kernel) (by decide +kernel)

end Link

end Aerial
