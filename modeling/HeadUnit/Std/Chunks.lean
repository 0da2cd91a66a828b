import Mathlib.Data.List.Flatten
import Mathlib.Data.List.Infix
import HeadUnit.Std.Machine

/-!
# Lists sent in numbered chunks

A list is sent in chunks of `size` slots, numbered from 1, and every chunk carries its number, the
number of chunks and the length of the list. The collector starts anew at chunk 1, takes from every
chunk as many slots as are missing to the announced length, and hands over at the chunk with the
last number. It does not look whether chunks are missing between; `handedOver_items` says when what
it hands over is from one list nevertheless.
-/

namespace Chunks

variable {α : Type*} {size : Nat}

/-- The last chunk of a list has fewer items than slots; a receiver finds something in the others
too. -/
structure Chunk (α : Type*) (size : Nat) where
  total : Nat
  number : Nat
  announced : Nat
  items : List α
  filler : List α
  length_slots : (items ++ filler).length = size

def collect (list : List α) (c : Chunk α size) : List α :=
  let base := if c.number = 1 then [] else list
  base ++ (c.items ++ c.filler).take (c.announced - base.length)

def collector : Transducer (List α) (Chunk α size) (List α) :=
  ⟨fun list c => (collect list c, if c.number = c.total then [collect list c] else [])⟩

/-- `chunks` are the chunks of a list of `announced` items. -/
structure Splits (chunks : List (Chunk α size)) (announced : Nat) : Prop where
  covers : announced ≤ size * chunks.length
  tight : announced + size > size * chunks.length
  chunk (i : Nat) (h : i < chunks.length) :
    chunks[i].total = chunks.length ∧ chunks[i].number = i + 1 ∧
      chunks[i].announced = announced ∧ chunks[i].items.length = min size (announced - size * i)

namespace Splits

variable {chunks received : List (Chunk α size)} {announced : Nat} (h : Splits chunks announced)

include h

theorem of_mem {c : Chunk α size} (hc : c ∈ chunks) :
    c.total = chunks.length ∧ 1 ≤ c.number ∧ c.number ≤ c.total ∧ c.announced = announced ∧
      c.items.length = min size (announced - size * (c.number - 1)) := by
  obtain ⟨i, hi, rfl⟩ := List.mem_iff_getElem.mp hc
  obtain ⟨htotal, hnumber, hannounced, hlength⟩ := h.chunk i hi
  rw [htotal, hnumber, Nat.add_sub_cancel]
  exact ⟨rfl, Nat.le_add_left 1 i, hi, hannounced, hlength⟩

theorem pairwise : chunks.Pairwise fun b c => b.number < c.number := by
  apply List.pairwise_iff_getElem.mpr
  intro i j hi hj hij
  rw [(h.chunk i hi).2.1, (h.chunk j hj).2.1]
  exact Nat.succ_lt_succ hij

/-- A chunk other than the last one is full. -/
theorem length_of_lt {c : Chunk α size} (hc : c ∈ chunks) (hlt : c.number < c.total) :
    c.items.length = size := by
  obtain ⟨htotal, hpos, -, -, hlength⟩ := h.of_mem hc
  have hmul : size * (c.number - 1) + size + size ≤ size * chunks.length := by
    rw [← Nat.mul_succ, ← Nat.mul_succ]
    exact Nat.mul_le_mul_left size (by omega)
  have htight := h.tight
  omega

/-- The chunks before `c` in a sequence of received chunks are fewer than its number says. -/
theorem length_lt_number {p : List (Chunk α size)} {c : Chunk α size}
    (hsub : (p ++ [c]).Sublist chunks) : p.length < c.number := by
  induction p using List.reverseRecOn generalizing c with
  | nil => exact (h.of_mem (hsub.subset (List.mem_singleton_self c))).2.1
  | append_singleton p b ih =>
    have hlt := (List.pairwise_append.mp (h.pairwise.sublist hsub)).2.2 b (by simp) c (by simp)
    have hprev := ih ((List.sublist_append_left _ _).trans hsub)
    rw [List.length_append, List.length_singleton]
    omega

/-- The chunks before `c` are full. -/
theorem length_before {p : List (Chunk α size)} {c : Chunk α size}
    (hsub : (p ++ [c]).Sublist chunks) : (p.flatMap Chunk.items).length = size * p.length := by
  have hfull : ∀ b ∈ p, b.items.length = size := by
    intro b hb
    have hlt := (List.pairwise_append.mp (h.pairwise.sublist hsub)).2.2 b hb c (by simp)
    have hb := hsub.subset (List.mem_append_left _ hb)
    obtain ⟨htotal, -, hle, -⟩ := h.of_mem (hsub.subset (by simp : c ∈ p ++ [c]))
    have htotal' := (h.of_mem hb).1
    exact h.length_of_lt hb (by omega)
  rw [List.length_flatMap, List.map_congr_left hfull]
  simp [Nat.mul_comm]

end Splits

/-! ## One list -/

section Received

variable {chunks received : List (Chunk α size)} {announced : Nat} {list : List α}

/-- The list is begun anew: its first chunk arrives or nothing is collected yet. -/
def Begun (list : List α) (received : List (Chunk α size)) : Prop :=
  list = [] ∨ ∃ c ∈ received, c.number = 1

/-- No slot is taken that has no item: nothing is lost, or all chunks are full, or the last one is
lost. -/
def Clean (chunks received : List (Chunk α size)) (announced : Nat) : Prop :=
  received = chunks ∨ size ∣ announced ∨ ∀ c ∈ received, c.number < c.total

/-- What is taken of a chunk behind the chunks `p`. -/
theorem take_slots (h : Splits chunks announced) (hsub : received.Sublist chunks)
    (hclean : Clean chunks received announced) {p : List (Chunk α size)} {c : Chunk α size}
    (hp : p ++ [c] <+: received) :
    (c.items ++ c.filler).take (announced - size * p.length) = c.items := by
  have hmem : c ∈ chunks := hsub.subset (hp.subset (by simp))
  obtain ⟨htotal, hpos, hle, -, hlength⟩ := h.of_mem hmem
  have hslots := c.length_slots
  rw [List.length_append] at hslots
  have hbefore := h.length_lt_number (hp.sublist.trans hsub)
  have hmul : size * p.length ≤ size * (c.number - 1) := Nat.mul_le_mul_left size (by omega)
  have hroom : c.items.length ≤ announced - size * p.length := by omega
  suffices hexact : c.items.length = size ∨ announced - size * p.length = c.items.length by
    rcases hexact with hfull | hexact
    · have hnil : c.filler = [] := List.length_eq_zero_iff.mp (by omega)
      rw [hnil, List.append_nil, List.take_of_length_le hroom]
    · rw [hexact, List.take_left]
  rcases Nat.lt_or_eq_of_le hle with hlt | hlast
  · exact .inl (h.length_of_lt hmem hlt)
  · have hcovers := h.covers
    have htight := h.tight
    have hsucc : size * (c.number - 1) + size = size * chunks.length := by
      rw [← Nat.mul_succ]
      congr 1
      omega
    rcases hclean with hall | hfull | hlost
    · subst hall
      obtain ⟨rest, hrest⟩ := hp
      have hnumber : c.number = p.length + 1 := by
        have hget := (h.chunk p.length (by simp [← hrest])).2.1
        simpa [← hrest] using hget
      have hprev : c.number - 1 = p.length := by omega
      rw [hprev] at hlength hsucc
      exact .inr (by omega)
    · obtain ⟨q, rfl⟩ := hfull
      have hq : size * chunks.length ≤ size * q := by
        by_contra hlt
        have hlt := Nat.lt_of_mul_lt_mul_left (Nat.lt_of_not_le hlt)
        have := Nat.mul_le_mul_left size hlt
        rw [Nat.mul_succ] at this
        omega
      exact .inl (by omega)
    · exact absurd hlast (Nat.ne_of_lt (hlost c (hp.subset (by simp))))

/-- Behind a part of the received chunks the collector holds their items. -/
theorem final_of_isPrefix (h : Splits chunks announced) (hsub : received.Sublist chunks)
    (hbegun : Begun list received) (hclean : Clean chunks received announced)
    {p : List (Chunk α size)} (hp : p <+: received) (hne : list = [] ∨ p ≠ []) :
    collector.final list p = p.flatMap Chunk.items := by
  induction p using List.reverseRecOn with
  | nil =>
    obtain rfl : list = [] := hne.resolve_right (absurd rfl)
    rfl
  | append_singleton p c ih =>
    have hmem : c ∈ chunks := hsub.subset (hp.subset (by simp))
    obtain ⟨-, hpos, hle, hannounced, -⟩ := h.of_mem hmem
    obtain ⟨rest, hrest⟩ := id hp
    have hpair := h.pairwise.sublist hsub
    rw [← hrest, List.append_assoc, List.pairwise_append] at hpair
    -- the base is what came before, also where it is thrown away or is nothing yet
    have hbase : (if c.number = 1 then [] else collector.final list p) =
        p.flatMap Chunk.items := by
      by_cases hnil : p = []
      · subst hnil
        split
        · rfl
        · rename_i hnumber
          apply hbegun.elim id
          rintro ⟨d, hd, hone⟩
          rw [← hrest] at hd
          rcases List.mem_cons.mp hd with rfl | hd
          · exact absurd hone hnumber
          · have hlt := (List.pairwise_cons.mp hpair.2.1).1 d hd
            omega
      · obtain ⟨b, hb⟩ := List.exists_mem_of_ne_nil p hnil
        have hlt := hpair.2.2 b hb c (by simp)
        have hb1 := (h.of_mem (hsub.subset (hp.subset (List.mem_append_left _ hb)))).2.1
        rw [if_neg (by omega)]
        exact ih ((List.prefix_append p [c]).trans hp) (.inr hnil)
    have hlen := h.length_before (hp.sublist.trans hsub)
    rw [Transducer.final_snoc]
    show collect (collector.final list p) c = _
    rw [collect, hbase, hannounced, hlen, take_slots h hsub hclean hp, List.flatMap_append]
    simp

/-- What is handed over was collected. -/
theorem collector_mem_out {w : List α} {cs : List (Chunk α size)}
    (hw : w ∈ collector.out list cs) : ∃ p, p <+: cs ∧ p ≠ [] ∧ w = collector.final list p := by
  obtain ⟨p, c, hp, hw⟩ := collector.mem_out hw
  refine ⟨p ++ [c], hp, by simp, ?_⟩
  rw [Transducer.final_snoc]
  have hmem : w ∈ if c.number = c.total then [collect (collector.final list p) c] else [] := hw
  split at hmem
  · exact List.mem_singleton.mp hmem
  · cases hmem

/-- A chunk that neither begins a list nor belongs to one that is longer than what is collected. -/
def Idle (list : List α) (c : Chunk α size) : Prop := c.number ≠ 1 ∧ c.announced ≤ list.length

theorem final_of_idle {cs : List (Chunk α size)} (h : ∀ c ∈ cs, Idle list c) :
    collector.final list cs = list := by
  induction cs with
  | nil => rfl
  | cons c cs ih =>
    obtain ⟨hnumber, hle⟩ := h c List.mem_cons_self
    have hstep : collect list c = list := by
      rw [collect, if_neg hnumber, Nat.sub_eq_zero_of_le hle, List.take_zero, List.append_nil]
    rw [Transducer.final_cons]
    show collector.final (collect list c) cs = list
    rw [hstep]
    exact ih fun d hd => h d (List.mem_cons_of_mem c hd)

/-- Everything handed over from a clean begun list on, until the next chunk that is not idle, is a
part of that list. -/
theorem handedOver_items (h : Splits chunks announced) (hsub : received.Sublist chunks)
    (hbegun : Begun list received) (hclean : Clean chunks received announced)
    {idle : List (Chunk α size)} (hidle : ∀ c ∈ idle, Idle (received.flatMap Chunk.items) c)
    {w : List α} (hw : w ∈ collector.out list (received ++ idle)) :
    w.Sublist (chunks.flatMap Chunk.items) := by
  have hcollected {p : List (Chunk α size)} (hp : p <+: received) (hne : list = [] ∨ p ≠ []) :
      (collector.final list p).Sublist (chunks.flatMap Chunk.items) := by
    rw [final_of_isPrefix h hsub hbegun hclean hp hne]
    exact (hp.sublist.trans hsub).flatMap _
  have hall : list = [] ∨ received ≠ [] := by
    apply hbegun.imp id
    rintro ⟨c, hc, -⟩
    exact List.ne_nil_of_mem hc
  rw [Transducer.out_append, List.mem_append] at hw
  rcases hw with hw | hw
  · obtain ⟨p, hp, hne, rfl⟩ := collector_mem_out hw
    exact hcollected hp (.inr hne)
  · obtain ⟨p, hp, -, rfl⟩ := collector_mem_out hw
    rw [final_of_isPrefix h hsub hbegun hclean List.prefix_rfl hall] at hw ⊢
    rw [final_of_idle fun c hc => hidle c (hp.subset hc)]
    exact hsub.flatMap _

end Received

end Chunks
