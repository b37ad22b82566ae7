import Aerial.Connection
import Aerial.Proofs.Station.Effects

/-! # The record of a level

A record lists what happened at one station of a chain, oldest first: the effects it
had, and how far its changes came on their way from the rotator to a client. What is
claimed about runs is claimed about these lists. -/

namespace Aerial

inductive Sign where
  | effect (e : Effect)
  | published (c : Change)
  | pumped (c : Change)
  | passed (t : Transport) (s : Status)
  | handed (f : Frame)

namespace Sign

@[simp] def effect? : Sign → Option Effect
  | effect e => some e
  | _ => none

@[simp] def published? : Sign → Option Change
  | published c => some c
  | _ => none

@[simp] def pumped? : Sign → Option Change
  | pumped c => some c
  | _ => none

@[simp] def passed? (t : Transport) : Sign → Option Status
  | passed u s => if u = t then some s else none
  | _ => none

@[simp] def handed? : Sign → Option Frame
  | handed f => some f
  | _ => none

end Sign

abbrev Record := List Sign

namespace Record

def effects (r : Record) : List Effect := r.filterMap Sign.effect?

/-- The changes that the rotator announced. -/
def told (r : Record) : List Change := Effect.changes r.effects

/-- The events published on the bus. -/
def said (r : Record) : List Change := r.filterMap Sign.published?

/-- The events that the pump read from the bus. -/
def pumped (r : Record) : List Change := r.filterMap Sign.pumped?

/-- The statuses passed on to the clients of a transport. -/
def passed (t : Transport) (r : Record) : List Status := r.filterMap (Sign.passed? t)

/-- The frames that reached the link of the next station. -/
def handed (r : Record) : List Frame := r.filterMap Sign.handed?

/-- The payloads written to a client. -/
def got (x : ClientId) (r : Record) : List Octets := Effect.payloadsTo x r.effects

/-- The connection of a client was neither made anew nor closed. -/
def Undisturbed (x : ClientId) (r : Record) : Prop := Effect.Spares x r.effects

/-- The pump never reported a lag. -/
def Lossless (r : Record) : Prop := ∀ n, .logged (.pumpLagged n) ∉ r.effects

instance (x : ClientId) (r : Record) : Decidable (r.Undisturbed x) :=
  decidable_of_iff ((.logged (.connected .tcp x) ∉ r.effects ∧
      .logged (.connected .websocket x) ∉ r.effects) ∧ .closed x ∉ r.effects)
    (and_congr_left' ⟨fun h t => by cases t <;> simp [h], fun h => ⟨h _, h _⟩⟩)

/-- Whether an effect is the report of a lag. -/
def isLag : Effect → Bool
  | .logged (.pumpLagged _) => true
  | _ => false

theorem lossless_iff {r : Record} : r.Lossless ↔ ∀ e ∈ r.effects, isLag e = false := by
  refine ⟨fun h e he => ?_, fun h n hn => by simpa [isLag] using h _ hn⟩
  unfold isLag
  split
  · exact absurd he (h _)
  · rfl

instance (r : Record) : Decidable r.Lossless := decidable_of_iff _ lossless_iff.symm

section append

variable (r r' : Record)

@[simp] theorem effects_append : effects (r ++ r') = r.effects ++ r'.effects :=
  List.filterMap_append

@[simp] theorem told_append : told (r ++ r') = r.told ++ r'.told := by
  rw [told, effects_append, Effect.changes_append, told, told]

@[simp] theorem said_append : said (r ++ r') = r.said ++ r'.said := List.filterMap_append

@[simp] theorem pumped_append : pumped (r ++ r') = r.pumped ++ r'.pumped := List.filterMap_append

@[simp] theorem passed_append (t : Transport) :
    passed t (r ++ r') = r.passed t ++ r'.passed t := List.filterMap_append

@[simp] theorem handed_append : handed (r ++ r') = r.handed ++ r'.handed := List.filterMap_append

@[simp] theorem got_append (x : ClientId) : got x (r ++ r') = r.got x ++ r'.got x := by
  rw [got, effects_append, Effect.payloadsTo_append, got, got]

theorem undisturbed_append {r r' : Record} {x : ClientId} :
    Undisturbed x (r ++ r') ↔ r.Undisturbed x ∧ r'.Undisturbed x := by
  rw [Undisturbed, effects_append, Effect.spares_append, Undisturbed, Undisturbed]

theorem lossless_append {r r' : Record} :
    Lossless (r ++ r') ↔ r.Lossless ∧ r'.Lossless := by
  simp only [Lossless, effects_append, List.mem_append, not_or, forall_and]

end append

/-! ## Records of effects only -/

section effects

variable (es : List Effect)

@[simp] theorem effects_map_effect : effects (es.map .effect) = es := by
  simp [effects, List.filterMap_map, Function.comp_def]

@[simp] theorem told_map_effect : told (es.map .effect) = Effect.changes es := by
  rw [told, effects_map_effect]

@[simp] theorem got_map_effect (x : ClientId) :
    got x (es.map .effect) = Effect.payloadsTo x es := by
  rw [got, effects_map_effect]

@[simp] theorem said_map_effect : said (es.map .effect) = [] := by
  simp [said]

@[simp] theorem pumped_map_effect : pumped (es.map .effect) = [] := by
  simp [pumped]

@[simp] theorem passed_map_effect (t : Transport) : passed t (es.map .effect) = [] := by
  simp [passed]

@[simp] theorem handed_map_effect : handed (es.map .effect) = [] := by
  simp [handed]

theorem undisturbed_map_effect {es : List Effect} {x : ClientId} :
    Undisturbed x (es.map .effect) ↔ Effect.Spares x es := by
  rw [Undisturbed, effects_map_effect]

end effects

/-! ## Sign by sign -/

section cons

variable (s : Sign) (r : Record)

theorem filterMap_cons_toList {α β : Type} (f : α → Option β) (a : α) (as : List α) :
    (a :: as).filterMap f = (f a).toList ++ as.filterMap f := by
  rw [List.filterMap_cons]
  cases f a <;> rfl

@[simp] theorem effects_cons : effects (s :: r) = s.effect?.toList ++ r.effects :=
  filterMap_cons_toList ..

@[simp] theorem told_nil : told [] = [] := rfl

@[simp] theorem told_cons : told (s :: r) = (s.effect?.bind Effect.change?).toList ++ r.told := by
  rw [told, effects_cons, Effect.changes_append]
  cases s.effect? with
  | none => rfl
  | some e =>
    rw [Option.toList_some, Effect.changes, filterMap_cons_toList, List.filterMap_nil,
      List.append_nil, Option.bind_some, told]

@[simp] theorem said_nil : said [] = [] := rfl

@[simp] theorem said_cons : said (s :: r) = s.published?.toList ++ r.said :=
  filterMap_cons_toList ..

@[simp] theorem pumped_nil : pumped [] = [] := rfl

@[simp] theorem pumped_cons : pumped (s :: r) = s.pumped?.toList ++ r.pumped :=
  filterMap_cons_toList ..

@[simp] theorem passed_nil (t : Transport) : passed t [] = [] := rfl

@[simp] theorem passed_cons (t : Transport) :
    passed t (s :: r) = (s.passed? t).toList ++ r.passed t :=
  filterMap_cons_toList ..

@[simp] theorem handed_nil : handed [] = [] := rfl

@[simp] theorem handed_cons : handed (s :: r) = s.handed?.toList ++ r.handed :=
  filterMap_cons_toList ..

@[simp] theorem got_nil (x : ClientId) : got x [] = [] := rfl

@[simp] theorem got_cons (x : ClientId) :
    got x (s :: r) = (s.effect?.bind (Effect.payloadTo? x)).toList ++ r.got x := by
  rw [got, effects_cons, Effect.payloadsTo_append]
  cases s.effect? with
  | none => rfl
  | some e =>
    rw [Option.toList_some, Effect.payloadsTo, filterMap_cons_toList, List.filterMap_nil,
      List.append_nil, Option.bind_some, got]

end cons

end Record

end Aerial
