import Smer.Lib.Handover
import Mathlib.Data.List.Perm.Basic

/-!
# Programs that answer

A program that owns an object answers by handing it over. `CellProg.Replies` says that on every path
it hands its object over at most once, fit to be sent, and that it ends without a hand-over only
where it `may`. What is fit, and whether the program may stay silent, can be different for each
object: both are families over the references.

`Handover.Answers` is the invariant of any number of such programs: a reference is handed over at
most once, it is taken at most once, and a program that has ended and may not stay silent has handed
its object over.
-/

namespace Lib

namespace CellProg

variable {Op V α β : Type} {Ans : Op → Type} {asks : Op → Prop} {may may' : Prop}
  {sends sends' : V → Prop}

/-- From this content of the object on, the program hands over once, something fit to be sent, and is
quiet then. It ends without a hand-over only where it may. -/
inductive Replies (asks : Op → Prop) (may : Prop) (sends : V → Prop) :
    CellProg Op Ans V α → V → Prop where
  | pure (a : α) (v : V) : may → Replies asks may sends (.pure a) v
  | base {o : Op} {k : Ans o → CellProg Op Ans V α} {v : V} :
      asks o → (∀ r, Replies asks may sends (k r) v) → Replies asks may sends (.vis (.base o) k) v
  | load {k : V → CellProg Op Ans V α} {v : V} :
      Replies asks may sends (k v) v → Replies asks may sends (.vis .load k) v
  | store {k : Unit → CellProg Op Ans V α} {v v' : V} :
      Replies asks may sends (k ()) v' → Replies asks may sends (.vis (.store v') k) v
  | push {k : Unit → CellProg Op Ans V α} {v : V} :
      sends v → Quiet asks (k ()) → Replies asks may sends (.vis .push k) v

namespace Replies

theorem lift_bind {p : Prog Op Ans α} {f : α → CellProg Op Ans V β} {v : V}
    (only : p.Only asks) (rest : ∀ a, Replies asks may sends (f a) v) :
    Replies asks may sends (CellProg.lift p >>= f) v := by
  induction only with
  | pure a => exact rest a
  | vis ho _ ih => exact .base ho ih

theorem load_bind {f : V → CellProg Op Ans V β} {v : V} (rest : Replies asks may sends (f v) v) :
    Replies asks may sends (CellProg.load >>= f) v := .load rest

theorem update_bind {g : V → V} {f : Unit → CellProg Op Ans V β} {v : V}
    (rest : Replies asks may sends (f ()) (g v)) :
    Replies asks may sends (update g >>= f) v := .load (.store rest)

/-- Handing over is the last thing done. -/
theorem push_last {v : V} (hv : sends v) :
    Replies asks may sends (CellProg.push : CellProg Op Ans V Unit) v := .push hv (.pure ())

/-- More may be fit, and more programs may stay silent. -/
theorem mono {p : CellProg Op Ans V α} {v : V} (replies : Replies asks may sends p v)
    (hmay : may → may') (hsends : ∀ v, sends v → sends' v) : Replies asks may' sends' p v := by
  induction replies with
  | pure a v silent => exact .pure a v (hmay silent)
  | base ho _ ih => exact .base ho ih
  | load _ ih => exact .load ih
  | store _ ih => exact .store ih
  | push hv quiet => exact .push (hsends _ hv) quiet

/-- **A program that replies is tame.** -/
theorem tame {p : CellProg Op Ans V α} {v : V} (replies : Replies asks may sends p v) :
    Tame asks sends p v := by
  induction replies with
  | pure a v _ => exact .pure a v
  | base ho _ ih => exact .base ho ih
  | load _ ih => exact .load ih
  | store _ ih => exact .store ih
  | push hv quiet => exact .push hv quiet

end Replies

end CellProg

namespace Handover

open CellProg

variable {Op V σ : Type} {Ans : Op → Type}

/-- A program has handed its object over, or it still has its object and will reply. -/
def TaskAnswers (asks : Op → Prop) (may : Nat → Prop) (sends : Nat → V → Prop)
    (c : Handover Op Ans V σ) (t : Nat × CellProg Op Ans V Unit) : Prop :=
  (t.2.Quiet asks ∧ ∃ v, (t.1, v) ∈ c.pushed) ∨
    (∀ v, (t.1, v) ∉ c.handed) ∧ ∃ v, c.heap[t.1]? = some v ∧
      t.2.Replies asks (may t.1) (sends t.1) v

structure Answers (asks : Op → Prop) (may : Nat → Prop) (sends : Nat → V → Prop)
    (c : Handover Op Ans V σ) : Prop where
  tasks : ∀ t ∈ c.tasks, c.TaskAnswers asks may sends t
  fit : ∀ e ∈ c.pushed, sends e.1 e.2
  once : (c.handed.map Prod.fst).Nodup
  /-- what was handed over is in the queue or was taken -/
  queue : (c.popped.map Prod.fst ++ c.queue).Perm (c.handed.map Prod.fst)

section Answers

variable {asks : Op → Prop} {may may' : Nat → Prop} {sends sends' : Nat → V → Prop}
  {fits : V → Prop} {h : (o : Op) → σ → Option (Ans o × σ)} {c c' : Handover Op Ans V σ}

theorem answers_start (s : σ) : (start s : Handover Op Ans V σ).Answers asks may sends where
  tasks t ht := by cases ht
  fit e he := by cases he
  once := List.nodup_nil
  queue := .refl _

/-- The families matter on the references of the heap only. -/
theorem Answers.mono (ans : c.Answers asks may sends) (sound : c.Sound asks fits)
    (hmay : ∀ r < c.heap.length, may r → may' r)
    (hsends : ∀ r < c.heap.length, ∀ v, sends r v → sends' r v) : c.Answers asks may' sends' := by
  refine ⟨fun t ht => ?_, fun e he => ?_, ans.once, ans.queue⟩
  · rcases ans.tasks t ht with done | ⟨hnew, v, hv, replies⟩
    · exact .inl done
    · have hlt := sound.below t ht
      exact .inr ⟨hnew, v, hv, replies.mono (hmay _ hlt) (hsends _ hlt)⟩
  · have hget := sound.unchanged e (List.mem_append_left _ he)
    exact hsends _ (List.getElem?_eq_some_iff.mp hget).1 _ (ans.fit e he)

/-- A new program replies as its reference asks. -/
theorem Answers.spawn (ans : c.Answers asks may sends) (sound : c.Sound asks fits) {v : V}
    {p : CellProg Op Ans V Unit}
    (replies : p.Replies asks (may c.heap.length) (sends c.heap.length) v) :
    (c.spawn v p).Answers asks may sends := by
  refine ⟨fun t ht => ?_, ans.fit, ans.once, ans.queue⟩
  rcases List.mem_append.mp ht with ht | ht
  · rcases ans.tasks t ht with done | ⟨hnew, v', hv', replies'⟩
    · exact .inl done
    · exact .inr ⟨hnew, v', getElem?_concat_some hv', replies'⟩
  · cases List.mem_singleton.mp ht
    exact .inr ⟨sound.fresh, v, List.getElem?_concat_length, replies⟩

theorem nodup_of_perm_concat {α : Type} {l l' : List α} {a : α} (perm : l'.Perm (l ++ [a]))
    (nodup : l.Nodup) (fresh : a ∉ l) : l'.Nodup := by
  rw [perm.nodup_iff, ← List.concat_eq_append]
  exact nodup.concat fresh

/-- A reference that is put behind the handed ones. -/
theorem handed_inject_perm (c : Handover Op Ans V σ) (v : V) :
    ((c.inject v).handed.map Prod.fst).Perm (c.handed.map Prod.fst ++ [c.heap.length]) := by
  show ((c.pushed ++ (c.injected ++ [(c.heap.length, v)])).map Prod.fst).Perm _
  rw [← List.append_assoc, List.map_append]
  exact .refl _

theorem Answers.inject (ans : c.Answers asks may sends) (sound : c.Sound asks fits) (v : V) :
    (c.inject v).Answers asks may sends := by
  have hnew : c.heap.length ∉ c.handed.map Prod.fst := by
    intro hmem
    obtain ⟨e, he, heq⟩ := List.mem_map.mp hmem
    have hlt := (List.getElem?_eq_some_iff.mp (sound.unchanged e he)).1
    rw [heq] at hlt
    exact absurd hlt (Nat.lt_irrefl _)
  refine ⟨fun t ht => ?_, ans.fit, ?_, ?_⟩
  · rcases ans.tasks t ht with done | ⟨hnot, v', hv', replies⟩
    · exact .inl done
    · refine .inr ⟨fun w hw => ?_, v', getElem?_concat_some hv', replies⟩
      rcases mem_handed_inject.mp hw with hw | hw
      · exact hnot w hw
      · exact absurd (congrArg Prod.fst hw) (Nat.ne_of_lt (sound.below t ht))
  · exact nodup_of_perm_concat (handed_inject_perm c v) ans.once hnew
  · refine .trans ?_ (handed_inject_perm c v).symm
    show (c.popped.map Prod.fst ++ (c.queue ++ [c.heap.length])).Perm _
    rw [← List.append_assoc]
    exact ans.queue.append_right _

theorem Answers.pop (ans : c.Answers asks may sends) (hp : c.pop = some c') :
    c'.Answers asks may sends := by
  obtain ⟨r, queue, v, hqueue, -, rfl⟩ := pop_eq_some hp
  refine ⟨ans.tasks, ans.fit, ans.once, ?_⟩
  show ((c.popped ++ [(r, v)]).map Prod.fst ++ queue).Perm (c.handed.map Prod.fst)
  have hsame := ans.queue
  rw [hqueue] at hsame
  rw [List.map_append, List.append_assoc]
  exact hsame

/-- A program that leaves the queue alone moves on. -/
theorem Answers.moves (ans : c.Answers asks may sends) (sound : c.Sound asks fits) {i r : Nat}
    {p p' : CellProg Op Ans V Unit} (hi : c.tasks[i]? = some (r, p)) {heap : List V} {s : σ}
    (others : ∀ r', r' ≠ r → heap[r']? = c.heap[r']?)
    (next : TaskAnswers asks may sends { c with heap := heap } (r, p')) :
    Answers asks may sends { c with shared := s, heap := heap, tasks := c.tasks.set i (r, p') } := by
  refine ⟨fun t ht => ?_, ans.fit, ans.once, ans.queue⟩
  rcases sound.other hi ht with rfl | ⟨ht, hne⟩
  · exact next
  · rcases ans.tasks t ht with done | ⟨hnew, v, hv, replies⟩
    · exact .inl done
    · exact .inr ⟨hnew, v, (others _ hne).trans hv, replies⟩

/-- **A program hands over a reference that was never handed over.** -/
theorem Answers.push (ans : c.Answers asks may sends) (sound : c.Sound asks fits) {i r : Nat} {v : V}
    {k : Unit → CellProg Op Ans V Unit} (hi : c.tasks[i]? = some (r, .vis .push k))
    (hv : c.heap[r]? = some v) : Answers asks may sends { c with
      tasks := c.tasks.set i (r, k ())
      queue := c.queue ++ [r]
      pushed := c.pushed ++ [(r, v)] } := by
  rcases ans.tasks _ (List.mem_of_getElem? hi) with ⟨quiet, -⟩ | ⟨hnew, w, hw, replies⟩
  · cases quiet with
    | vis ho => exact ho.elim
  rw [hv] at hw
  cases hw
  obtain ⟨hsends, hquiet⟩ : sends r v ∧ (k ()).Quiet asks := by
    cases replies with
    | push hsends hquiet => exact ⟨hsends, hquiet⟩
  have hperm : ((c.pushed ++ [(r, v)] ++ c.injected).map Prod.fst).Perm
      (c.handed.map Prod.fst ++ [r]) := by
    simp only [handed, List.map_append, List.map_cons, List.map_nil, List.append_assoc]
    exact List.perm_append_comm.append_left _
  have hfresh : r ∉ c.handed.map Prod.fst := by
    intro hmem
    obtain ⟨e, he, rfl⟩ := List.mem_map.mp hmem
    exact hnew e.2 he
  refine ⟨fun t ht => ?_, fun e he => ?_, ?_, ?_⟩
  · rcases sound.other hi ht with rfl | ⟨ht, hne⟩
    · exact .inl ⟨hquiet, v, List.mem_append_right _ List.mem_cons_self⟩
    · rcases ans.tasks t ht with ⟨quiet, v', hpushed⟩ | ⟨hnot, v', hv', replies'⟩
      · exact .inl ⟨quiet, v', List.mem_append_left _ hpushed⟩
      · refine .inr ⟨fun w hw => ?_, v', hv', replies'⟩
        have hmem := hperm.mem_iff.mp (List.mem_map_of_mem hw)
        rcases List.mem_append.mp hmem with hmem | hmem
        · obtain ⟨e, he, heq⟩ := List.mem_map.mp hmem
          exact hnot e.2 (heq ▸ he)
        · exact hne (List.mem_singleton.mp hmem)
  · rcases List.mem_append.mp he with he | he
    · exact ans.fit e he
    · cases List.mem_singleton.mp he
      exact hsends
  · exact nodup_of_perm_concat hperm ans.once hfresh
  · refine .trans ?_ hperm.symm
    show (c.popped.map Prod.fst ++ (c.queue ++ [r])).Perm _
    rw [← List.append_assoc]
    exact ans.queue.append_right _

/-- **Whatever the programs do, each hands its object over at most once.** -/
theorem Answers.step (ans : c.Answers asks may sends) (sound : c.Sound asks fits) {i : Nat}
    (hs : c.step h i = some c') : c'.Answers asks may sends := by
  unfold Handover.step at hs
  split at hs
  · rename_i r p hi
    have hmem := List.mem_of_getElem? hi
    have hlt := sound.below _ hmem
    cases p with
    | pure a => cases hs
    | vis op k =>
      cases op with
      | base o =>
        obtain ⟨out, -, rfl⟩ := Option.map_eq_some_iff.mp hs
        refine ans.moves sound hi (fun _ _ => rfl) ?_
        rcases ans.tasks _ hmem with ⟨quiet, hpushed⟩ | ⟨hnew, v, hv, replies⟩
        · cases quiet with
          | vis _ quiet => exact .inl ⟨quiet out.1, hpushed⟩
        · cases replies with
          | base _ replies => exact .inr ⟨hnew, v, hv, replies out.1⟩
      | load =>
        obtain ⟨v, hv, rfl⟩ := Option.map_eq_some_iff.mp hs
        refine ans.moves sound hi (fun _ _ => rfl) ?_
        rcases ans.tasks _ hmem with ⟨quiet, hpushed⟩ | ⟨hnew, w, hw, replies⟩
        · cases quiet with
          | vis _ quiet => exact .inl ⟨quiet v, hpushed⟩
        · rw [hv] at hw
          cases hw
          cases replies with
          | load replies => exact .inr ⟨hnew, v, hv, replies⟩
      | store v =>
        cases hs
        refine ans.moves sound hi (fun r' hne => List.getElem?_set_ne hne.symm) ?_
        rcases ans.tasks _ hmem with ⟨quiet, -⟩ | ⟨hnew, w, -, replies⟩
        · cases quiet with
          | vis ho => exact ho.elim
        · cases replies with
          | store replies => exact .inr ⟨hnew, v, List.getElem?_set_self hlt, replies⟩
      | push =>
        obtain ⟨v, hv, rfl⟩ := Option.map_eq_some_iff.mp hs
        exact ans.push sound hi hv
  · cases hs

theorem Answers.setShared (ans : c.Answers asks may sends) (s : σ) :
    Answers asks may sends { c with shared := s } :=
  ⟨ans.tasks, ans.fit, ans.once, ans.queue⟩

theorem Answers.pushed_nodup (ans : c.Answers asks may sends) : (c.pushed.map Prod.fst).Nodup :=
  ans.once.sublist (List.Sublist.map _ (List.sublist_append_left _ _))

/-- Nothing is taken twice. -/
theorem Answers.popped_nodup (ans : c.Answers asks may sends) : (c.popped.map Prod.fst).Nodup :=
  (ans.queue.nodup_iff.mpr ans.once).sublist (List.sublist_append_left _ _)

/-- A program that has ended has handed its object over, unless it may stay silent. -/
theorem Answers.ended (ans : c.Answers asks may sends) {r : Nat}
    (ht : (r, Prog.pure ()) ∈ c.tasks) : (∃ v, (r, v) ∈ c.pushed) ∨ may r := by
  rcases ans.tasks _ ht with ⟨-, hpushed⟩ | ⟨-, v, -, replies⟩
  · exact .inl hpushed
  · cases replies with
    | pure _ _ silent => exact .inr silent

end Answers

end Handover

end Lib
