import Ebnf.Proofs.Parsing.Search

/-!
The search with its recursion and its loops written out. Depth is counted upwards from the start
symbol, items in a row are looked for on a list of partial matches, and a repetition keeps a
worklist of the matches that it has still to go on behind. Nothing says beforehand that any of this
ends: each call has one unit of fuel less than its caller, and a search that runs out of fuel has no
answer, as one that goes on for ever has with no amount of it. A search notes the calls that it
makes and the entries that it puts on worklists.
-/

set_option autoImplicit false
set_option relaxedAutoImplicit false

namespace Ebnf.Backtracking

/-- What a search does on its way. -/
inductive Event where
  /-- It makes a call at a depth. -/
  | call (depth : Nat)
  /-- It puts an entry on a worklist while it goes on behind another one. -/
  | push (popped pushed : Match)

/-- A search that notes its events, the last one first, and fails if it runs out of fuel. -/
abbrev Search := StateT (List Event) Option

namespace Search

def note (event : Event) : Search Unit :=
  modify (event :: ·)

/-- With enough fuel, the search ends with the result. More fuel changes nothing about that, nor
about the events on the way, which are all allowed. -/
def Ends {α : Type} (allowed : Event → Prop) (search : (fuel : Nat) → Search α) (result : α) :
    Prop :=
  ∃ enough events, (∀ fuel, enough ≤ fuel → ∀ before,
      (search fuel).run before = some (result, events ++ before)) ∧
    ∀ event ∈ events, allowed event

section Ends

variable {α β : Type} {allowed : Event → Prop} {search : Nat → Search α}
  {next : α → Nat → Search β} {a : α} {b : β} {xs : List α}

theorem ends_pure (a : α) : Ends allowed (fun _ ↦ pure a) a :=
  ⟨0, [], fun _ _ _ ↦ rfl, nofun⟩

theorem Ends.bind (h : Ends allowed search a) (hnext : Ends allowed (next a) b) :
    Ends allowed (fun fuel ↦ search fuel >>= fun x ↦ next x fuel) b := by
  obtain ⟨enough, events, hrun, hevents⟩ := h
  obtain ⟨more, others, hmore, hothers⟩ := hnext
  refine ⟨max enough more, others ++ events, fun fuel hfuel before ↦ ?_,
    List.forall_mem_append.mpr ⟨hothers, hevents⟩⟩
  obtain ⟨hfirst, hsecond⟩ := Nat.max_le.mp hfuel
  rw [StateT.run_bind, hrun fuel hfirst, List.append_assoc]
  exact hmore fuel hsecond _

theorem Ends.map (h : Ends allowed search a) (f : α → β) :
    Ends allowed (fun fuel ↦ search fuel >>= fun x ↦ pure (f x)) (f a) :=
  h.bind (ends_pure (f a))

/-- A call takes a unit of fuel. -/
theorem Ends.of_succ (h : Ends allowed (fun fuel ↦ search (fuel + 1)) a) :
    Ends allowed search a := by
  obtain ⟨enough, events, hrun, hevents⟩ := h
  refine ⟨enough + 1, events, fun fuel hfuel ↦ ?_, hevents⟩
  obtain ⟨fuel, rfl⟩ := Nat.exists_eq_add_of_le' hfuel
  exact hrun (fuel + enough) (Nat.le_add_left _ _)

theorem ends_note {event : Event} (h : allowed event) : Ends allowed (fun _ ↦ note event) () :=
  ⟨0, [event], fun _ _ _ ↦ rfl, List.forall_mem_singleton.mpr h⟩

theorem ends_mapM {f : α → β} (h : ∀ x ∈ xs, Ends allowed (next x) (f x)) :
    Ends allowed (fun fuel ↦ xs.mapM fun x ↦ next x fuel) (xs.map f) := by
  induction xs with
  | nil => exact ends_pure []
  | cons x xs ih =>
    obtain ⟨hx, hxs⟩ := List.forall_mem_cons.mp h
    simp only [List.mapM_cons]
    exact hx.bind ((ih hxs).bind (ends_pure _))

theorem ends_forM {visit : α → Nat → Search PUnit}
    (h : ∀ x ∈ xs, Ends allowed (visit x) ⟨⟩) :
    Ends allowed (fun fuel ↦ xs.forM fun x ↦ visit x fuel) ⟨⟩ := by
  induction xs with
  | nil => exact ends_pure _
  | cons x xs ih =>
    obtain ⟨hx, hxs⟩ := List.forall_mem_cons.mp h
    exact hx.bind (ih hxs)

end Ends

end Search

open Search

mutual

/-- Looks for an expression at the beginning of the input. -/
def explore (g : Grammar) : (fuel : Nat) → (e : Expr) → (input : List Char) → (depth : Nat) →
    Search (List Match)
  | 0, _, _, _ => failure
  | fuel + 1, e, input, depth => do
    note (.call depth)
    if maxDepth < depth then return []
    match e with
    | .symbol name =>
      match g.find? name with
      | none => return []
      | some body =>
        let found ← explore g fuel body input (depth + 1)
        return found.map fun m ↦ ⟨[.node name m.trees], m.rest⟩
    | .terminal text =>
      match dropPrefix? text.toList input with
      | none => return []
      | some rest => return [⟨if text.isEmpty then [] else [.leaf text], rest⟩]
    | .range chars =>
      match input with
      | [] => return []
      | c :: rest =>
        return if chars.contains c then [⟨[.leaf (String.singleton c)], rest⟩] else []
    | .choice es =>
      let found ← es.mapM fun e ↦ explore g fuel e input (depth + 1)
      return found.flatten
    | .seq first second rest =>
      exploreAll g fuel (first :: second :: rest) depth [.nothing input]
    | .optional body =>
      let found ← explore g fuel body input (depth + 1)
      return .nothing input :: found
    | .star body => drain g fuel body depth [.nothing input] [.nothing input]
    | .plus body =>
      let firsts ← explore g fuel body input (depth + 1)
      let found ← firsts.mapM fun m ↦ do
        let more ← drain g fuel body depth [.nothing m.rest] [.nothing m.rest]
        return more.map (.after m.trees)
      return found.flatten

/-- Looks for items in a row behind each of the partial matches. -/
def exploreAll (g : Grammar) : (fuel : Nat) → (items : List Expr) → (depth : Nat) →
    (partials : List Match) → Search (List Match)
  | 0, _, _, _ => failure
  | fuel + 1, items, depth, partials => do
    note (.call depth)
    match items with
    | [] => return partials
    | e :: items =>
      let found ← partials.mapM fun m ↦ do
        let more ← explore g fuel e m.rest (depth + 1)
        return more.map (.after m.trees)
      if found.flatten.isEmpty then return [] else exploreAll g fuel items depth found.flatten

/-- Looks for the body behind the entries of a worklist until none is left. The entry on top comes
first, the matches behind it that end where it ends are dropped, and the others are found and go on
top in their turn. -/
def drain (g : Grammar) : (fuel : Nat) → (body : Expr) → (depth : Nat) →
    (found worklist : List Match) → Search (List Match)
  | 0, _, _, _, _ => failure
  | fuel + 1, body, depth, found, worklist => do
    note (.call depth)
    match worklist with
    | [] => return found
    | m :: worklist =>
      let more ← explore g fuel body m.rest (depth + 1)
      let pushed := (more.filter fun n ↦ n.rest.length ≠ m.rest.length).map (.after m.trees)
      pushed.forM fun n ↦ note (.push m n)
      drain g fuel body depth (found ++ pushed) (pushed.reverse ++ worklist)

end

end Ebnf.Backtracking
