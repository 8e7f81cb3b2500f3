import Glaber.State.ItemsView

namespace Glaber.State.Items

open Glaber.Algo Glaber.Algo.Tsbuff

variable {α : Type}

section

variable {d : ItemDemand} {now tm : ℤ} {all : List (TsValue α)} {v : View α} {p : TsValue α}

inductive Mode (d : ItemDemand) (now tm : ℤ) (all : List (TsValue α)) (v : View α) : Prop
  | whole (hlive : v.live = all)
  | stuck (hsuf : v.live <:+ all) (hfull : v.live.length = v.size) (hroom : v.makeRoom d now = v)
  | behind (older rest : List (TsValue α)) (x : TsValue α) (hlive : v.live = older ++ rest) (hsuf : rest <:+ all)
      (hx : rest.head? = some x) (hxt : x.time ≤ tm)
  | early (hlt : ∀ u ∈ v.live, u.time < tm)

structure Kept (d : ItemDemand) (now tm : ℤ) (all : List (TsValue α)) (v : View α) : Prop where
  sub : v.live.Sublist all
  ne : v.live ≠ []
  mode : Mode d now tm all v

lemma Mode.of_room (hm : Mode d now tm all v) {v' : View α}
    (hroom : v.live.length < (v.makeRoom d now).size) (hp : ∀ u ∈ v.live, p.time ≤ u.time) (hne : v.live ≠ [])
    (hv' : v'.live = p :: v.live) : Mode d now tm (p :: all) v' := by
  rcases hm with hlive | ⟨hsuf, hfull, hstay⟩ | ⟨older, rest, x, hlive, hsuf, hx, hxt⟩ | hlt
  · exact .whole (by rw [hv', hlive])
  · rw [hstay] at hroom
    omega
  · exact .behind (p :: older) rest x (by rw [hv', hlive]; rfl) (hsuf.trans (List.suffix_cons p all)) hx hxt
  · refine .early ?_
    obtain ⟨w, hmem⟩ := List.exists_mem_of_ne_nil _ hne
    rw [hv']
    intro u hu
    rcases List.mem_cons.mp hu with rfl | hu
    · exact (hp w hmem).trans_lt (hlt w hmem)
    · exact hlt u hu

lemma Mode.of_full (hm : Mode d now tm all v) (hfull : v.live.length = v.size) (hstay : v.makeRoom d now = v) :
    Mode d now tm (p :: all) v := by
  rcases hm with hlive | ⟨hsuf, -, -⟩ | ⟨older, rest, x, hlive, hsuf, hx, hxt⟩ | hlt
  · exact .stuck (by rw [hlive]; exact List.suffix_cons p all) hfull hstay
  · exact .stuck (hsuf.trans (List.suffix_cons p all)) hfull hstay
  · exact .behind older rest x hlive (hsuf.trans (List.suffix_cons p all)) hx hxt
  · exact .early hlt

lemma Mode.of_evict (hm : Mode d now tm all v) {v' : View α} {x y : TsValue α} {l : List (TsValue α)}
    (hl : v.live = x :: y :: l) (hy : y.time ≤ tm) (hp : ∀ u ∈ v.live, p.time ≤ u.time)
    (hv' : v'.live = p :: y :: l) : Mode d now tm (p :: all) v' := by
  have htail : ∀ {k : List (TsValue α)}, x :: y :: l <:+ k → Mode d now tm (p :: k) v' := fun hsuf =>
    .behind [p] (y :: l) y hv' (((List.suffix_cons x _).trans hsuf).trans (List.suffix_cons p _)) rfl hy
  rcases hm with hlive | ⟨hsuf, -, hstay⟩ | ⟨older, rest, z, hlive, hsuf, hz, hzt⟩ | hlt
  · exact htail (by rw [← hlive, hl])
  · exact htail (by rw [← hl]; exact hsuf)
  · rcases older with _ | ⟨o, older⟩
    · exact htail (by rw [← hl, hlive]; exact hsuf)
    · refine .behind (p :: older) rest z ?_ (hsuf.trans (List.suffix_cons p all)) hz hzt
      rw [hl, List.cons_append, List.cons.injEq] at hlive
      rw [hv', hlive.2]
      rfl
  · refine .early ?_
    rw [hv']
    have hx := hlt x (by rw [hl]; simp)
    have hpx := hp x (by rw [hl]; simp)
    intro u hu
    rcases List.mem_cons.mp hu with rfl | hu
    · omega
    · exact hlt u (by rw [hl]; exact List.mem_cons_of_mem _ hu)

lemma Kept.step (hk : Kept d now tm all v) (ht : v.Tidy) (hd : now - d.period ≤ tm)
    (hp : ∀ u ∈ all, p.time ≤ u.time) (ho : AtMostOne (p :: all) tm) :
    Kept d now tm (p :: all) ((v.makeRoom d now).push p) := by
  obtain ⟨hsub, hne, hm⟩ := hk
  have hpl : ∀ u ∈ v.live, p.time ≤ u.time := fun u hu => hp u (hsub.subset hu)
  rcases ht.makeRoom_cases d now with ⟨hlive, hroom⟩ | ⟨hfull, hstay⟩ | ⟨hfull, hage, hevict⟩
  · have hpush : ((v.makeRoom d now).push p).live = p :: v.live := by
      rw [View.push_of_room (by rw [hlive]; exact hroom) (by rw [hlive]; exact hpl), hlive]
    exact ⟨by rw [hpush]; exact hsub.cons_cons p, by rw [hpush]; exact List.cons_ne_nil _ _,
      hm.of_room hroom hpl hne hpush⟩
  · rw [hstay, View.push_of_full hfull]
    exact ⟨hsub.cons p, hne, hm.of_full hfull hstay⟩
  · have hpos := List.length_pos_of_ne_nil hne
    have hpush : ((v.makeRoom d now).push p).live = p :: v.live.tail := by
      rw [hevict, View.push_of_room (by simp only [List.length_tail]; omega)]
      exact fun u hu => hpl u (List.mem_of_mem_tail hu)
    refine ⟨by rw [hpush]; exact ((List.tail_sublist _).trans hsub).cons_cons p,
      by rw [hpush]; exact List.cons_ne_nil _ _, ?_⟩
    rcases hv : v.live with _ | ⟨x, _ | ⟨y, l⟩⟩
    · exact absurd hv hne
    · rw [hv] at hage hpush
      simp only [secondTime] at hage
      have hx : x ∈ v.live := by rw [hv]; simp
      refine .early ?_
      rw [hpush]
      intro u hu
      rw [List.tail_cons, List.mem_singleton] at hu
      subst hu
      have hux := hpl x hx
      have hne := (List.pairwise_cons.mp ho).1 x (hsub.subset hx)
      by_contra hge
      exact hne (by omega) (by omega)
    · rw [hv] at hage hpush
      simp only [secondTime] at hage
      exact hm.of_evict hv (by omega) hpl (by rw [hpush, List.tail_cons])

lemma Kept.absorb (xs : List (TsValue α)) (hk : Kept d now tm all v) (ht : v.Tidy) (hd : now - d.period ≤ tm)
    (hs : Sorted (xs.reverse ++ all)) (ho : AtMostOne (xs.reverse ++ all) tm) (hpos : ∀ x ∈ xs, 0 < x.time) :
    Kept d now tm (xs.reverse ++ all) (v.absorb d now xs) := by
  induction xs generalizing v all with
  | nil => exact hk
  | cons p xs ih =>
    rw [List.reverse_cons, List.append_assoc, List.singleton_append] at hs ho ⊢
    have hpall := (List.pairwise_cons.mp (List.pairwise_append.mp hs).2.1).1
    have hstep := hk.step ht hd hpall (List.pairwise_append.mp ho).2.1
    exact ih hstep ((ht.makeRoom d now).push (hpos p (by simp))) hs ho
      fun x hx => hpos x (List.mem_cons_of_mem _ hx)

lemma Kept.rest (hk : Kept d now tm all v) (hs : Sorted all) (hin : Spans v.live tm) :
    ∃ older rest x, v.live = older ++ rest ∧ rest <:+ all ∧ x ∈ rest ∧ x.time ≤ tm ∧
      ∀ u ∈ older, u.time ≤ tm := by
  have hsort := hs.sublist hk.sub
  have hwhole : v.live <:+ all → ∃ older rest x, v.live = older ++ rest ∧ rest <:+ all ∧ x ∈ rest ∧ x.time ≤ tm ∧
      ∀ u ∈ older, u.time ≤ tm := by
    intro hsuf
    obtain ⟨u, hu, hut⟩ := hin.1
    exact ⟨[], v.live, u, rfl, hsuf, hu, hut, by simp⟩
  rcases hk.mode with hlive | ⟨hsuf, -, -⟩ | ⟨older, rest, x, hlive, hsuf, hx, hxt⟩ | hlt
  · exact hwhole (by rw [hlive])
  · exact hwhole hsuf
  · rw [hlive] at hsort
    have hmem := List.mem_of_mem_head? hx
    exact ⟨older, rest, x, hlive, hsuf, hmem, hxt,
      fun u hu => ((List.pairwise_append.mp hsort).2.2 u hu x hmem).trans hxt⟩
  · obtain ⟨-, w, hw, hwt⟩ := hin
    have := hlt w hw
    omega

end

section

variable {d : ItemDemand} {now b tm : ℤ} {v : View α} {p : TsValue α} {xs : List (TsValue α)}

inductive Late (b tm : ℤ) (xs : List (TsValue α)) (v : View α) : Prop
  | late (x : TsValue α) (hx : x ∈ v.live) (hb : b < x.time) (htm : x.time ≤ tm)
      (hsmall : v.size = 1 → ∀ u ∈ v.live, ∀ y ∈ xs, y.time ≤ u.time)
  | early (hlt : ∀ u ∈ v.live, u.time < tm) (hxs : ∀ y ∈ xs, y.time < tm)

lemma Late.step (hl : Late b tm (p :: xs) v) (ht : v.Tidy) (hd : now - d.period ≤ tm)
    (hdesc : ∀ y ∈ xs, y.time ≤ p.time) : Late b tm xs ((v.makeRoom d now).push p) := by
  rcases hl with ⟨x, hx, hb, htm, hsmall⟩ | ⟨hlt, hxs⟩
  swap
  · refine .early (fun u hu => ?_) fun y hy => hxs y (List.mem_cons_of_mem _ hy)
    rcases View.mem_push hu with rfl | hu
    · exact hxs u (by simp)
    · exact hlt u (View.mem_makeRoom hu)
  have hpos := List.length_pos_of_mem hx
  rcases ht.makeRoom_cases d now with ⟨hlive, hroom⟩ | ⟨hfull, hstay⟩ | ⟨hfull, hage, hevict⟩
  · refine .late x (View.mem_push_of_mem (by rw [hlive]; exact hx)) hb htm fun hsize => ?_
    rw [View.push_size] at hsize
    omega
  · rw [hstay, View.push_of_full hfull]
    exact .late x hx hb htm fun hsize u hu y hy => hsmall hsize u hu y (List.mem_cons_of_mem _ hy)
  · rw [hevict]
    rcases hv : v.live with _ | ⟨z, _ | ⟨y, l⟩⟩
    · rw [hv] at hpos
      exact absurd hpos (lt_irrefl 0)
    · rw [hv] at hx hfull
      have hpush : (View.push ⟨[], v.size⟩ p).live = [p] := View.push_of_room ht.size_pos (by simp)
      rw [List.mem_singleton.mp hx] at hb htm
      have hpz := hsmall hfull.symm z (by rw [hv]; simp) p (by simp)
      rw [List.tail_cons]
      by_cases hbp : b < p.time
      · refine .late p (by rw [hpush]; simp) hbp (by omega) fun _ u hu w hw => ?_
        rw [hpush, List.mem_singleton] at hu
        rw [hu]
        exact hdesc w hw
      · refine .early (fun u hu => ?_) fun w hw => ?_
        · rw [hpush, List.mem_singleton] at hu
          rw [hu]
          omega
        · have := hdesc w hw
          omega
    · have hs := ht.sorted
      rw [hv] at hx hfull hage hs
      simp only [secondTime] at hage
      have hzy := (List.pairwise_cons.mp hs).1 y (by simp)
      have hsize : (View.push ⟨(z :: y :: l).tail, v.size⟩ p).size ≠ 1 := by
        rw [View.push_size]
        simp only [List.length_cons] at hfull
        simp only
        omega
      rcases List.mem_cons.mp hx with rfl | hx
      · exact .late y (View.mem_push_of_mem (by simp)) (by omega) (by omega) fun h => absurd h hsize
      · exact .late x (View.mem_push_of_mem hx) hb htm fun h => absurd h hsize

lemma Late.absorb (hl : Late b tm xs v) (ht : v.Tidy) (hd : now - d.period ≤ tm)
    (hdesc : xs.Pairwise (fun x y => y.time ≤ x.time)) (hpos : ∀ x ∈ xs, 0 < x.time) :
    Late b tm [] (v.absorb d now xs) := by
  induction xs generalizing v with
  | nil => exact hl
  | cons p xs ih =>
    obtain ⟨hp, hdesc'⟩ := List.pairwise_cons.mp hdesc
    exact ih (hl.step ht hd hp) ((ht.makeRoom d now).push (hpos p (by simp))) hdesc'
      fun x hx => hpos x (List.mem_cons_of_mem _ hx)

lemma absorb_rejects (xs : List (TsValue α)) {w : TsValue α} (ht : v.Tidy) (hd : now - d.period ≤ tm)
    (hw : v.live.head? = some w) (htm : tm < w.time) (hnew : ∀ x ∈ xs, w.time < x.time) :
    (v.absorb d now xs).live = v.live ∧ (v.absorb d now xs).Tidy := by
  induction xs generalizing v with
  | nil => exact ⟨rfl, ht⟩
  | cons p xs ih =>
    have hmem := List.mem_of_mem_head? hw
    have hpw := hnew p (by simp)
    have hstep : ((v.makeRoom d now).push p).live = v.live := by
      have hreject : ∀ {u : View α}, u.live = v.live → (u.push p).live = v.live := by
        intro u hu
        rw [View.push, if_neg, hu]
        intro hacc
        have := hacc.2 w (by rw [hu]; exact hw) (ht.positive w hmem)
        omega
      rcases ht.makeRoom_cases d now with ⟨hlive, -⟩ | ⟨-, hstay⟩ | ⟨-, hage, -⟩
      · exact hreject hlive
      · exact hreject (by rw [hstay])
      · have hle : w.time ≤ secondTime v.live := by
          have hs := ht.sorted
          rcases hv : v.live with _ | ⟨z, _ | ⟨y, l⟩⟩
          · rw [hv] at hw
            exact absurd hw (by simp)
          · rw [hv] at hw
            cases hw
            exact le_rfl
          · rw [hv] at hw hs
            cases hw
            exact (List.pairwise_cons.mp hs).1 y (by simp)
        omega
    have ht' := (ht.makeRoom d now).push (x := p) ((ht.positive w hmem).trans hpw)
    have hrest := ih ht' (by rw [hstep]; exact hw) fun x hx => hnew x (List.mem_cons_of_mem _ hx)
    rw [hstep] at hrest
    exact hrest

end

end Glaber.State.Items
