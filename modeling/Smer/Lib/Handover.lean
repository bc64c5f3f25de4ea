import Smer.Lib.Prog
import Mathlib.Data.List.Nodup

/-!
# Programs that own an object and hand it over

A program that owns an object in memory reads it, writes it in place, and hands a reference to it to
a queue. `CellProg` is such a program over any operations besides. The consumer reads the object only
when it takes the reference from the queue, so what it finds there depends on what was written since.

A program is `Tame` if, whatever it is answered, it hands over only objects that are fit to be sent,
and neither writes nor hands over afterwards. Then what the consumer finds is what was handed over
(`Handover.Sound`). For a tame program the references can be left out: `CellProg.exec` is the same
program with the object as a value, which is handed over by copy.
-/

namespace Lib

/-- The operations of a program over one object: those it has anyway, and three on the object. -/
inductive CellOp (Op V : Type) where
  | base (o : Op)
  | load
  | store (v : V)
  | push

@[reducible] def CellOp.Ans {Op : Type} (Ans : Op → Type) {V : Type} : CellOp Op V → Type
  | .base o => Ans o
  | .load => V
  | .store _ | .push => Unit

abbrev CellProg (Op : Type) (Ans : Op → Type) (V α : Type) :=
  Prog (CellOp Op V) (CellOp.Ans Ans) α

namespace CellProg

variable {Op V α β : Type} {Ans : Op → Type}

def load : CellProg Op Ans V V := @Prog.call (CellOp Op V) (CellOp.Ans Ans) .load

def store (v : V) : CellProg Op Ans V Unit := @Prog.call (CellOp Op V) (CellOp.Ans Ans) (.store v)

def push : CellProg Op Ans V Unit := @Prog.call (CellOp Op V) (CellOp.Ans Ans) .push

/-- Write the object in place. -/
def update (f : V → V) : CellProg Op Ans V Unit := load >>= fun v => store (f v)

/-- A program that leaves the object alone. -/
def lift : Prog Op Ans α → CellProg Op Ans V α
  | .pure a => .pure a
  | .vis o k => .vis (.base o) fun r => lift (k r)

/-! ## The object as a value -/

/-- The program on the object as a value: it answers the object as well, and hands over copies. -/
def exec (send : V → Prog Op Ans Unit) : CellProg Op Ans V α → V → Prog Op Ans (α × V)
  | .pure a, v => .pure (a, v)
  | .vis (.base o) k, v => .vis o fun r => exec send (k r) v
  | .vis .load k, v => exec send (k v) v
  | .vis (.store v') k, _ => exec send (k ()) v'
  | .vis .push k, v => send v >>= fun r => exec send (k r) v

section Exec

variable {send : V → Prog Op Ans Unit}

theorem exec_bind (p : CellProg Op Ans V α) (f : α → CellProg Op Ans V β) (v : V) :
    exec send (p >>= f) v = exec send p v >>= fun out => exec send (f out.1) out.2 := by
  induction p generalizing v with
  | pure a => rfl
  | vis o k ih =>
    rw [Prog.vis_bind]
    cases o with
    | base o =>
      rw [exec, exec, Prog.vis_bind]
      congr 1
      funext r
      exact ih r v
    | load => exact ih v v
    | store v' => exact ih () v'
    | push =>
      rw [exec, exec, Prog.bind_assoc']
      congr 1
      funext r
      exact ih r v

theorem exec_lift (p : Prog Op Ans α) (v : V) :
    exec send (lift p) v = p >>= fun a => .pure (a, v) := by
  induction p with
  | pure a => rfl
  | vis o k ih =>
    rw [lift, exec, Prog.vis_bind]
    congr 1
    funext r
    exact ih r

@[simp] theorem exec_lift_bind (p : Prog Op Ans α) (f : α → CellProg Op Ans V β) (v : V) :
    exec send (lift p >>= f) v = p >>= fun a => exec send (f a) v := by
  rw [exec_bind, exec_lift, Prog.bind_assoc']
  rfl

@[simp] theorem exec_load_bind (f : V → CellProg Op Ans V β) (v : V) :
    exec send (load >>= f) v = exec send (f v) v := rfl

@[simp] theorem exec_update_bind (g : V → V) (f : Unit → CellProg Op Ans V β) (v : V) :
    exec send (update g >>= f) v = exec send (f ()) (g v) := rfl

@[simp] theorem exec_push (v : V) :
    exec send (push : CellProg Op Ans V Unit) v = send v >>= fun r => .pure (r, v) := rfl

end Exec

/-! ## Tame programs -/

variable {asks : Op → Prop} {sends : V → Prop}

/-- A program that neither writes the object nor hands it over. -/
def Quiet (asks : Op → Prop) (p : CellProg Op Ans V α) : Prop :=
  p.Only fun
    | .base o => asks o
    | .load => True
    | .store _ | .push => False

/-- From this content of the object on, the program hands over only what is fit to be sent, and is
quiet then. -/
inductive Tame (asks : Op → Prop) (sends : V → Prop) : CellProg Op Ans V α → V → Prop where
  | pure (a : α) (v : V) : Tame asks sends (.pure a) v
  | base {o : Op} {k : Ans o → CellProg Op Ans V α} {v : V} :
      asks o → (∀ r, Tame asks sends (k r) v) → Tame asks sends (.vis (.base o) k) v
  | load {k : V → CellProg Op Ans V α} {v : V} :
      Tame asks sends (k v) v → Tame asks sends (.vis .load k) v
  | store {k : Unit → CellProg Op Ans V α} {v v' : V} :
      Tame asks sends (k ()) v' → Tame asks sends (.vis (.store v') k) v
  | push {k : Unit → CellProg Op Ans V α} {v : V} :
      sends v → Quiet asks (k ()) → Tame asks sends (.vis .push k) v

theorem Tame.lift_bind {p : Prog Op Ans α} {f : α → CellProg Op Ans V β} {v : V}
    (only : p.Only asks) (rest : ∀ a, Tame asks sends (f a) v) :
    Tame asks sends (CellProg.lift p >>= f) v := by
  induction only with
  | pure a => exact rest a
  | vis ho _ ih => exact .base ho ih

theorem Tame.lift {p : Prog Op Ans α} {v : V} (only : p.Only asks) :
    Tame asks sends (CellProg.lift p : CellProg Op Ans V α) v := by
  induction only with
  | pure a => exact .pure a v
  | vis ho _ ih => exact .base ho ih

theorem Tame.load_bind {f : V → CellProg Op Ans V β} {v : V} (rest : Tame asks sends (f v) v) :
    Tame asks sends (CellProg.load >>= f) v := .load rest

theorem Tame.update_bind {g : V → V} {f : Unit → CellProg Op Ans V β} {v : V}
    (rest : Tame asks sends (f ()) (g v)) : Tame asks sends (update g >>= f) v :=
  .load (.store rest)

/-- Handing over is the last thing done. -/
theorem Tame.push_last {v : V} (hv : sends v) :
    Tame asks sends (CellProg.push : CellProg Op Ans V Unit) v := .push hv (.pure ())

end CellProg

/-! ## Programs, their objects, and the queue -/

/-- Programs at work, each with the reference of its object. The lists `pushed` and `popped` are the
history of the queue, with the objects as they were then; `injected` is what was put in by hand. -/
structure Handover (Op : Type) (Ans : Op → Type) (V σ : Type) where
  shared : σ
  heap : List V
  tasks : List (Nat × CellProg Op Ans V Unit)
  queue : List Nat
  pushed : List (Nat × V)
  injected : List (Nat × V)
  popped : List (Nat × V)

namespace Handover

variable {Op V σ : Type} {Ans : Op → Type}

def start (s : σ) : Handover Op Ans V σ := ⟨s, [], [], [], [], [], []⟩

/-- A new object and the program that owns it. -/
def spawn (c : Handover Op Ans V σ) (v : V) (p : CellProg Op Ans V Unit) : Handover Op Ans V σ :=
  { c with heap := c.heap ++ [v], tasks := c.tasks ++ [(c.heap.length, p)] }

/-- A new object, straight into the queue. -/
def inject (c : Handover Op Ans V σ) (v : V) : Handover Op Ans V σ :=
  { c with
    heap := c.heap ++ [v]
    queue := c.queue ++ [c.heap.length]
    injected := c.injected ++ [(c.heap.length, v)] }

/-- The consumer takes a reference and reads the object. -/
def pop (c : Handover Op Ans V σ) : Option (Handover Op Ans V σ) :=
  match c.queue with
  | [] => none
  | r :: queue => c.heap[r]?.map fun v => { c with queue := queue, popped := c.popped ++ [(r, v)] }

variable (h : (o : Op) → σ → Option (Ans o × σ))

/-- One operation of a program on the object `r`. -/
def perform (c : Handover Op Ans V σ) (i r : Nat) :
    CellProg Op Ans V Unit → Option (Handover Op Ans V σ)
  | .pure _ => none
  | .vis (.base o) k =>
    (h o c.shared).map fun out => { c with shared := out.2, tasks := c.tasks.set i (r, k out.1) }
  | .vis .load k => c.heap[r]?.map fun v => { c with tasks := c.tasks.set i (r, k v) }
  | .vis (.store v) k =>
    some { c with heap := c.heap.set r v, tasks := c.tasks.set i (r, k ()) }
  | .vis .push k =>
    c.heap[r]?.map fun v =>
      { c with
        tasks := c.tasks.set i (r, k ())
        queue := c.queue ++ [r]
        pushed := c.pushed ++ [(r, v)] }

/-- Program `i` performs its next operation. -/
def step (c : Handover Op Ans V σ) (i : Nat) : Option (Handover Op Ans V σ) :=
  match c.tasks[i]? with
  | some (r, p) => c.perform h i r p
  | none => none

/-! ## What the consumer finds -/

/-- What was put into the queue, with what it held then. -/
def handed (c : Handover Op Ans V σ) : List (Nat × V) := c.pushed ++ c.injected

/-- A program is either quiet, or tame on an object that has not been handed over. -/
def TaskSound (asks : Op → Prop) (sends : V → Prop) (c : Handover Op Ans V σ)
    (t : Nat × CellProg Op Ans V Unit) : Prop :=
  t.2.Quiet asks ∨
    (∀ v, (t.1, v) ∉ c.handed) ∧ ∃ v, c.heap[t.1]? = some v ∧ t.2.Tame asks sends v

structure Sound (asks : Op → Prop) (sends : V → Prop) (c : Handover Op Ans V σ) : Prop where
  owned : (c.tasks.map Prod.fst).Nodup
  below : ∀ t ∈ c.tasks, t.1 < c.heap.length
  tasks : ∀ t ∈ c.tasks, c.TaskSound asks sends t
  /-- an object stays as it was handed over -/
  unchanged : ∀ e ∈ c.handed, c.heap[e.1]? = some e.2
  fit : ∀ e ∈ c.pushed, sends e.2
  queue : ∀ r ∈ c.queue, ∃ v, (r, v) ∈ c.handed
  popped : ∀ e ∈ c.popped, e ∈ c.handed

section Lists

variable {α β : Type}

theorem getElem?_concat_some {l : List α} {i : Nat} {a b : α} (hi : l[i]? = some a) :
    (l ++ [b])[i]? = some a := by
  rw [List.getElem?_append_left (List.getElem?_eq_some_iff.mp hi).1, hi]

/-- A member of an updated list is the new one, or it stands elsewhere. -/
theorem mem_set_cases {l : List α} {i : Nat} {a t : α} (ht : t ∈ l.set i a) :
    t = a ∨ ∃ j, j ≠ i ∧ l[j]? = some t := by
  obtain ⟨j, hj⟩ := List.mem_iff_getElem?.mp ht
  rw [List.getElem?_set] at hj
  split at hj
  · split at hj
    · exact .inl (Option.some.inj hj).symm
    · cases hj
  · rename_i hne
    exact .inr ⟨j, fun h => hne h.symm, hj⟩

/-- Entries of different places have different keys. -/
theorem fst_ne {l : List (α × β)} (nodup : (l.map Prod.fst).Nodup) {i j : Nat} {s t : α × β}
    (hi : l[i]? = some s) (hj : l[j]? = some t) (hne : j ≠ i) : t.1 ≠ s.1 := by
  intro heq
  apply hne
  have hi' : (l.map Prod.fst)[i]? = some s.1 := by rw [List.getElem?_map, hi, Option.map_some]
  have hj' : (l.map Prod.fst)[j]? = some s.1 := by rw [List.getElem?_map, hj, Option.map_some, heq]
  exact (List.getElem?_inj (List.getElem?_eq_some_iff.mp hj').1 nodup).mp (hj'.trans hi'.symm)

/-- An entry that keeps its key leaves the keys alone. -/
theorem map_fst_set {l : List (α × β)} {i : Nat} {a : α} {b : β} (hi : l[i]? = some (a, b))
    (b' : β) : (l.set i (a, b')).map Prod.fst = l.map Prod.fst := by
  have hlt := (List.getElem?_eq_some_iff.mp hi).1
  rw [List.map_set]
  apply List.ext_getElem?
  intro j
  rw [List.getElem?_set, List.length_map]
  split
  · rename_i heq
    subst heq
    rw [List.getElem?_map, hi]
    rfl
  · rfl

end Lists

section Sound

variable {asks : Op → Prop} {sends : V → Prop} {h : (o : Op) → σ → Option (Ans o × σ)}
  {c c' : Handover Op Ans V σ}

theorem sound_start (s : σ) : (start s : Handover Op Ans V σ).Sound asks sends where
  owned := List.nodup_nil
  below t ht := by cases ht
  tasks t ht := by cases ht
  unchanged e he := by cases he
  fit e he := by cases he
  queue r hr := by cases hr
  popped e he := by cases he

/-- No object of the heap's next reference has been handed over. -/
theorem Sound.fresh (sound : c.Sound asks sends) (v : V) : (c.heap.length, v) ∉ c.handed := by
  intro hmem
  exact absurd (List.getElem?_eq_some_iff.mp (sound.unchanged _ hmem)).1 (Nat.lt_irrefl _)

theorem Sound.spawn (sound : c.Sound asks sends) {v : V} {p : CellProg Op Ans V Unit}
    (tame : p.Tame asks sends v) : (c.spawn v p).Sound asks sends := by
  refine ⟨?_, fun t ht => ?_, fun t ht => ?_, fun e he => ?_, sound.fit, sound.queue, sound.popped⟩
  · show ((c.tasks ++ [(c.heap.length, p)]).map Prod.fst).Nodup
    rw [List.map_append, List.nodup_append]
    refine ⟨sound.owned, List.nodup_singleton _, fun a ha b hb => ?_⟩
    obtain ⟨t, ht, rfl⟩ := List.mem_map.mp ha
    cases List.mem_singleton.mp hb
    exact Nat.ne_of_lt (sound.below t ht)
  · show t.1 < (c.heap ++ [v]).length
    rw [List.length_append, List.length_singleton]
    rcases List.mem_append.mp ht with ht | ht
    · exact Nat.lt_succ_of_lt (sound.below t ht)
    · cases List.mem_singleton.mp ht
      exact Nat.lt_succ_self _
  · rcases List.mem_append.mp ht with ht | ht
    · rcases sound.tasks t ht with quiet | ⟨hnew, v', hv', tame'⟩
      · exact .inl quiet
      · exact .inr ⟨hnew, v', getElem?_concat_some hv', tame'⟩
    · cases List.mem_singleton.mp ht
      exact .inr ⟨sound.fresh, v, List.getElem?_concat_length, tame⟩
  · exact getElem?_concat_some (sound.unchanged e he)

theorem mem_handed_inject {v : V} {e : Nat × V} :
    e ∈ (c.inject v).handed ↔ e ∈ c.handed ∨ e = (c.heap.length, v) := by
  show e ∈ c.pushed ++ (c.injected ++ [(c.heap.length, v)]) ↔ _
  rw [← List.append_assoc, List.mem_append, List.mem_singleton]
  rfl

theorem Sound.inject (sound : c.Sound asks sends) (v : V) : (c.inject v).Sound asks sends := by
  refine ⟨sound.owned, fun t ht => ?_, fun t ht => ?_, fun e he => ?_, sound.fit, fun r hr => ?_,
    fun e he => mem_handed_inject.mpr (.inl (sound.popped e he))⟩
  · show t.1 < (c.heap ++ [v]).length
    rw [List.length_append, List.length_singleton]
    exact Nat.lt_succ_of_lt (sound.below t ht)
  · rcases sound.tasks t ht with quiet | ⟨hnew, v', hv', tame⟩
    · exact .inl quiet
    · refine .inr ⟨fun w hw => ?_, v', getElem?_concat_some hv', tame⟩
      rcases mem_handed_inject.mp hw with hw | hw
      · exact hnew w hw
      · exact absurd (congrArg Prod.fst hw) (Nat.ne_of_lt (sound.below t ht))
  · rcases mem_handed_inject.mp he with he | rfl
    · exact getElem?_concat_some (sound.unchanged e he)
    · exact List.getElem?_concat_length
  · rcases List.mem_append.mp hr with hr | hr
    · obtain ⟨w, hw⟩ := sound.queue r hr
      exact ⟨w, mem_handed_inject.mpr (.inl hw)⟩
    · cases List.mem_singleton.mp hr
      exact ⟨v, mem_handed_inject.mpr (.inr rfl)⟩

theorem pop_eq_some (hp : c.pop = some c') : ∃ r queue v, c.queue = r :: queue ∧
    c.heap[r]? = some v ∧ c' = { c with queue := queue, popped := c.popped ++ [(r, v)] } := by
  unfold pop at hp
  split at hp
  · cases hp
  · rename_i r queue hqueue
    obtain ⟨v, hv, rfl⟩ := Option.map_eq_some_iff.mp hp
    exact ⟨r, queue, v, hqueue, hv, rfl⟩

/-- **The consumer finds what was handed over.** -/
theorem Sound.pop (sound : c.Sound asks sends) (hp : c.pop = some c') : c'.Sound asks sends := by
  obtain ⟨r, queue, v, hqueue, hv, rfl⟩ := pop_eq_some hp
  have hrest : ∀ r' ∈ r :: queue, ∃ w, (r', w) ∈ c.handed := by
    rw [← hqueue]
    exact sound.queue
  refine ⟨sound.owned, sound.below, sound.tasks, sound.unchanged, sound.fit,
    fun r' hr' => hrest r' (List.mem_cons_of_mem _ hr'), fun e he => ?_⟩
  rcases List.mem_append.mp he with he | he
  · exact sound.popped e he
  · cases List.mem_singleton.mp he
    obtain ⟨w, hw⟩ := hrest r List.mem_cons_self
    have hunchanged := sound.unchanged _ hw
    rw [hv] at hunchanged
    cases hunchanged
    exact hw

/-- What every other program owns is another object. -/
theorem Sound.other (sound : c.Sound asks sends) {i r : Nat} {p p' : CellProg Op Ans V Unit}
    (hi : c.tasks[i]? = some (r, p)) {t : Nat × CellProg Op Ans V Unit}
    (ht : t ∈ c.tasks.set i (r, p')) : t = (r, p') ∨ t ∈ c.tasks ∧ t.1 ≠ r := by
  rcases mem_set_cases ht with rfl | ⟨j, hne, hj⟩
  · exact .inl rfl
  · exact .inr ⟨List.mem_of_getElem? hj, fst_ne sound.owned hi hj hne⟩

/-- A program that changes neither the heap nor the queue moves on. -/
theorem Sound.moves (sound : c.Sound asks sends) {i r : Nat} {p p' : CellProg Op Ans V Unit}
    (hi : c.tasks[i]? = some (r, p)) (next : c.TaskSound asks sends (r, p')) (s : σ) :
    Sound asks sends { c with shared := s, tasks := c.tasks.set i (r, p') } := by
  have hlt := sound.below _ (List.mem_of_getElem? hi)
  refine ⟨?_, fun t ht => ?_, fun t ht => ?_, sound.unchanged, sound.fit, sound.queue, sound.popped⟩
  · rw [map_fst_set hi]
    exact sound.owned
  · rcases sound.other hi ht with rfl | ⟨ht, -⟩
    · exact hlt
    · exact sound.below t ht
  · rcases sound.other hi ht with rfl | ⟨ht, -⟩
    · exact next
    · exact sound.tasks t ht

theorem Sound.store (sound : c.Sound asks sends) {i r : Nat} {v : V}
    {k : Unit → CellProg Op Ans V Unit} (hi : c.tasks[i]? = some (r, .vis (.store v) k)) :
    Sound asks sends { c with heap := c.heap.set r v, tasks := c.tasks.set i (r, k ()) } := by
  have hmem := List.mem_of_getElem? hi
  have hlt := sound.below _ hmem
  rcases sound.tasks _ hmem with quiet | ⟨hnew, w, -, tame⟩
  · cases quiet with
    | vis ho => exact ho.elim
  have hkeep : ∀ {r' : Nat} {v' : V}, r' ≠ r → c.heap[r']? = some v' →
      (c.heap.set r v)[r']? = some v' := by
    intro r' v' hne hv'
    rw [List.getElem?_set_ne hne.symm, hv']
  refine ⟨?_, fun t ht => ?_, fun t ht => ?_, fun e he => ?_, sound.fit, sound.queue, sound.popped⟩
  · rw [map_fst_set hi]
    exact sound.owned
  · show t.1 < (c.heap.set r v).length
    rw [List.length_set]
    rcases sound.other hi ht with rfl | ⟨ht, -⟩
    · exact hlt
    · exact sound.below t ht
  · rcases sound.other hi ht with rfl | ⟨ht, hne⟩
    · cases tame with
      | store tame => exact .inr ⟨hnew, v, List.getElem?_set_self hlt, tame⟩
    · rcases sound.tasks t ht with quiet | ⟨hnew', v', hv', tame'⟩
      · exact .inl quiet
      · exact .inr ⟨hnew', v', hkeep hne hv', tame'⟩
  · refine hkeep (fun heq => ?_) (sound.unchanged e he)
    exact hnew e.2 (heq ▸ he)

theorem Sound.push (sound : c.Sound asks sends) {i r : Nat} {v : V}
    {k : Unit → CellProg Op Ans V Unit} (hi : c.tasks[i]? = some (r, .vis .push k))
    (hv : c.heap[r]? = some v) :
    Sound asks sends { c with
      tasks := c.tasks.set i (r, k ())
      queue := c.queue ++ [r]
      pushed := c.pushed ++ [(r, v)] } := by
  have hmem := List.mem_of_getElem? hi
  have hlt := sound.below _ hmem
  rcases sound.tasks _ hmem with quiet | ⟨hnew, w, hw, tame⟩
  · cases quiet with
    | vis ho => exact ho.elim
  rw [hv] at hw
  cases hw
  obtain ⟨hsends, hquiet⟩ : sends v ∧ (k ()).Quiet asks := by
    cases tame with
    | push hsends hquiet => exact ⟨hsends, hquiet⟩
  have hhanded : ∀ e : Nat × V, e ∈ c.pushed ++ [(r, v)] ++ c.injected ↔
      e ∈ c.handed ∨ e = (r, v) := by
    intro e
    simp only [handed, List.mem_append, List.mem_singleton]
    tauto
  refine ⟨?_, fun t ht => ?_, fun t ht => ?_, fun e he => ?_, fun e he => ?_, fun r' hr' => ?_,
    fun e he => (hhanded e).mpr (.inl (sound.popped e he))⟩
  · rw [map_fst_set hi]
    exact sound.owned
  · rcases sound.other hi ht with rfl | ⟨ht, -⟩
    · exact hlt
    · exact sound.below t ht
  · rcases sound.other hi ht with rfl | ⟨ht, hne⟩
    · exact .inl hquiet
    · rcases sound.tasks t ht with quiet | ⟨hnew', v', hv', tame'⟩
      · exact .inl quiet
      · refine .inr ⟨fun w hw => ?_, v', hv', tame'⟩
        rcases (hhanded _).mp hw with hw | hw
        · exact hnew' w hw
        · exact hne (congrArg Prod.fst hw)
  · rcases (hhanded e).mp he with he | rfl
    · exact sound.unchanged e he
    · exact hv
  · rcases List.mem_append.mp he with he | he
    · exact sound.fit e he
    · cases List.mem_singleton.mp he
      exact hsends
  · rcases List.mem_append.mp hr' with hr' | hr'
    · obtain ⟨w, hw⟩ := sound.queue r' hr'
      exact ⟨w, (hhanded _).mpr (.inl hw)⟩
    · cases List.mem_singleton.mp hr'
      exact ⟨v, (hhanded _).mpr (.inr rfl)⟩

/-- **Whatever the programs do, nothing that was handed over is written.** -/
theorem Sound.step (sound : c.Sound asks sends) {i : Nat} (hs : c.step h i = some c') :
    c'.Sound asks sends := by
  unfold Handover.step at hs
  split at hs
  · rename_i r p hi
    have hmem := List.mem_of_getElem? hi
    cases p with
    | pure a => cases hs
    | vis op k =>
      cases op with
      | base o =>
        obtain ⟨out, -, rfl⟩ := Option.map_eq_some_iff.mp hs
        refine sound.moves hi ?_ out.2
        rcases sound.tasks _ hmem with quiet | ⟨hnew, v, hv, tame⟩
        · cases quiet with
          | vis _ quiet => exact .inl (quiet out.1)
        · cases tame with
          | base _ tame => exact .inr ⟨hnew, v, hv, tame out.1⟩
      | load =>
        obtain ⟨v, hv, rfl⟩ := Option.map_eq_some_iff.mp hs
        refine sound.moves hi ?_ c.shared
        rcases sound.tasks _ hmem with quiet | ⟨hnew, w, hw, tame⟩
        · cases quiet with
          | vis _ quiet => exact .inl (quiet v)
        · rw [hv] at hw
          cases hw
          cases tame with
          | load tame => exact .inr ⟨hnew, v, hv, tame⟩
      | store v =>
        cases hs
        exact sound.store hi
      | push =>
        obtain ⟨v, hv, rfl⟩ := Option.map_eq_some_iff.mp hs
        exact sound.push hi hv
  · cases hs

/-- No program puts anything in by hand. -/
theorem step_injected {i : Nat} (hs : c.step h i = some c') : c'.injected = c.injected := by
  unfold Handover.step at hs
  split at hs
  · rename_i r p hi
    cases p with
    | pure a => cases hs
    | vis op k =>
      cases op with
      | base o =>
        obtain ⟨out, -, rfl⟩ := Option.map_eq_some_iff.mp hs
        rfl
      | load =>
        obtain ⟨v, -, rfl⟩ := Option.map_eq_some_iff.mp hs
        rfl
      | store v =>
        cases hs
        rfl
      | push =>
        obtain ⟨v, -, rfl⟩ := Option.map_eq_some_iff.mp hs
        rfl
  · cases hs

/-- No program takes anything. -/
theorem step_popped {i : Nat} (hs : c.step h i = some c') : c'.popped = c.popped := by
  unfold Handover.step at hs
  split at hs
  · rename_i r p hi
    cases p with
    | pure a => cases hs
    | vis op k =>
      cases op with
      | base o =>
        obtain ⟨out, -, rfl⟩ := Option.map_eq_some_iff.mp hs
        rfl
      | load =>
        obtain ⟨v, -, rfl⟩ := Option.map_eq_some_iff.mp hs
        rfl
      | store v =>
        cases hs
        rfl
      | push =>
        obtain ⟨v, -, rfl⟩ := Option.map_eq_some_iff.mp hs
        rfl
  · cases hs

/-- The shared state may be changed by others. -/
theorem Sound.setShared (sound : c.Sound asks sends) (s : σ) :
    Sound asks sends { c with shared := s } :=
  ⟨sound.owned, sound.below, sound.tasks, sound.unchanged, sound.fit, sound.queue, sound.popped⟩

/-- What the consumer finds in an object that a program has pushed. -/
theorem Sound.popped_fit (sound : c.Sound asks sends) {r : Nat} {v v' : V}
    (popped : (r, v) ∈ c.popped) (pushed : (r, v') ∈ c.pushed) : v = v' ∧ sends v := by
  have hpopped := sound.unchanged _ (sound.popped _ popped)
  have hpushed := sound.unchanged _ (List.mem_append_left _ pushed)
  dsimp only at hpopped hpushed
  rw [hpopped] at hpushed
  cases hpushed
  exact ⟨rfl, sound.fit _ pushed⟩

end Sound

end Handover

end Lib
