import Abnf.Proofs.Circles

/-! Where an entry arrives that is handed on from sink to sink, told without counting loggers. It arrives at
last unless it runs in a circle, and then it arrives where its routes end. -/

namespace Abnf.Log.Network

/-- A record handed to some sinks in turn, and where it arrives. A logger among them that does not let its
entry through is the end of it; one that does hands a record of its own to its own sinks. -/
inductive Delivers (net : Network) (entry : Entry) :
    Readings → Record → List (Sink × Nat) → List (Sink × Record) → Prop
  | nil {clock : Readings} {record : Record} : Delivers net entry clock record [] []
  | keep {clock : Readings} {record : Record} {sink : Sink} {i : Nat} {sinks : List (Sink × Nat)}
      {outs : List (Sink × Record)} (hend : ∀ inner, sink ≠ .logger inner)
      (h : Delivers net entry clock record sinks outs) :
      Delivers net entry clock record ((sink, i) :: sinks) ((sink, record) :: outs)
  | refuse {clock : Readings} {record : Record} {inner : LoggerId} {i : Nat} {sinks : List (Sink × Nat)}
      {outs : List (Sink × Record)}
      (hclosed : ∀ l, net.logger? inner = some l → ¬ l.level.admits entry.level = true)
      (h : Delivers net entry clock record sinks outs) :
      Delivers net entry clock record ((.logger inner, i) :: sinks) outs
  | pass {clock : Readings} {record : Record} {inner : LoggerId} {l : Logger} {i : Nat}
      {sinks : List (Sink × Nat)} {here there : List (Sink × Record)}
      (hl : net.logger? inner = some l) (hadmits : l.level.admits entry.level = true)
      (hhere : Delivers net entry (clock.behind i) (l.record (clock.behind i []) entry)
        l.sinks.toList.zipIdx here)
      (hthere : Delivers net entry clock record sinks there) :
      Delivers net entry clock record ((.logger inner, i) :: sinks) (here ++ there)

variable {net : Network} {entry : Entry} {clock : Readings} {record : Record}
  {sinks : List (Sink × Nat)} {outs outs' : List (Sink × Record)} {id : LoggerId} {hops i : Nat}

theorem Delivers.unique (h : net.Delivers entry clock record sinks outs)
    (h' : net.Delivers entry clock record sinks outs') : outs = outs' := by
  induction h generalizing outs' with
  | nil =>
    cases h'
    rfl
  | keep hend _ ih =>
    cases h' with
    | keep _ h' => rw [ih h']
    | refuse _ _ | pass _ _ _ _ => exact absurd rfl (hend _)
  | refuse hclosed _ ih =>
    cases h' with
    | keep hend _ => exact absurd rfl (hend _)
    | refuse _ h' => exact ih h'
    | pass hl hadmits _ _ => exact absurd hadmits (hclosed _ hl)
  | pass hl hadmits _ _ ihhere ihthere =>
    cases h' with
    | keep hend _ => exact absurd rfl (hend _)
    | refuse hclosed _ => exact absurd hadmits (hclosed _ hl)
    | pass hl' _ hhere hthere =>
      obtain rfl := Option.some.inj (hl.symm.trans hl')
      rw [ihhere hhere, ihthere hthere]

theorem Delivers.append {sinks' : List (Sink × Nat)} (h : net.Delivers entry clock record sinks outs)
    (h' : net.Delivers entry clock record sinks' outs') :
    net.Delivers entry clock record (sinks ++ sinks') (outs ++ outs') := by
  induction h with
  | nil => exact h'
  | keep hend _ ih => exact .keep hend (ih h')
  | refuse hclosed _ ih => exact .refuse hclosed (ih h')
  | pass hl hadmits hhere _ _ ih =>
    rw [List.append_assoc]
    exact .pass hl hadmits hhere (ih h')

theorem Delivers.flatMap {f : Sink × Nat → List (Sink × Record)} (sinks : List (Sink × Nat))
    (h : ∀ s ∈ sinks, net.Delivers entry clock record [s] (f s)) :
    net.Delivers entry clock record sinks (sinks.flatMap f) := by
  induction sinks with
  | nil => exact .nil
  | cons s sinks ih =>
    obtain ⟨hsink, hrest⟩ := List.forall_mem_cons.mp h
    exact hsink.append (ih hrest)

/-- What has routes arrives at their ends. -/
theorem delivers_of_routes (h : net.routes entry hops (clock.behind i) id = some outs)
    (record : Record) : net.Delivers entry clock record [(.logger id, i)] outs := by
  induction hops using Nat.strong_induction_on generalizing clock i id outs record with
  | _ hops ih =>
    obtain ⟨hclosed, rfl⟩ | ⟨l, fewer, rfl, hl, hadmits, hinner, rfl⟩ := routes_eq_some h
    · exact .refuse (fun l hl hadmits => hclosed (isEnabled_iff.mpr ⟨l, hl, hadmits⟩)) .nil
    · rw [← List.append_nil (List.flatMap _ _)]
      refine .pass hl hadmits (Delivers.flatMap _ ?_) .nil
      rintro ⟨sink, j⟩ hsink
      cases sink with
      | logger inner =>
        have hs : l.sinks[j]? = some (.logger inner) := by
          simpa [List.mem_zipIdx_iff_getElem?] using hsink
        obtain ⟨there, hthere⟩ := hinner j inner hs
        rw [Record.out, hthere]
        exact ih fewer (Nat.lt_succ_self fewer) hthere _
      | ring _ | outlet _ => exact .keep (by simp) .nil

/-- What arrives at last was not handed to a logger where it would run in a circle. -/
theorem Delivers.not_circles (h : net.Delivers entry clock record sinks outs) {inner : LoggerId}
    (hs : (.logger inner, i) ∈ sinks) : ¬ net.Circles entry.level inner := by
  induction h generalizing inner i with
  | nil => exact absurd hs List.not_mem_nil
  | keep hend _ ih =>
    rcases List.mem_cons.mp hs with he | hs
    · exact absurd (Prod.mk.inj he).1.symm (hend inner)
    · exact ih hs
  | refuse hclosed _ ih =>
    rcases List.mem_cons.mp hs with he | hs
    · obtain ⟨⟨rfl⟩, -⟩ := Prod.mk.inj he
      intro hcircles
      obtain ⟨_, ⟨l, hl, hadmits, -⟩, -⟩ := hcircles.exists_inner
      exact hclosed l hl hadmits
    · exact ih hs
  | @pass _ _ _ l _ _ _ _ hl _ _ _ ihhere ihthere =>
    rcases List.mem_cons.mp hs with he | hs
    · obtain ⟨⟨rfl⟩, -⟩ := Prod.mk.inj he
      intro hcircles
      obtain ⟨next, ⟨l', hl', -, hnext⟩, hrest⟩ := hcircles.exists_inner
      obtain rfl : l' = l := Option.some.inj (hl'.symm.trans hl)
      obtain ⟨j, hj⟩ := Array.mem_iff_getElem?.mp hnext
      have hmem : (.logger next, j) ∈ l'.sinks.toList.zipIdx :=
        List.mem_zipIdx_iff_getElem?.mpr (by simpa using hj)
      exact ihhere hmem hrest
    · exact ihthere hs

/-- An entry that is logged arrives where its routes lead, and nowhere else. It does not arrive exactly if it
has no routes. -/
theorem delivers_iff_routes : net.Delivers entry clock record [(.logger id, i)] outs ↔
    net.routes entry net.loggers.size (clock.behind i) id = some outs := by
  constructor
  · intro h
    cases hroutes : net.routes entry net.loggers.size (clock.behind i) id with
    | none => exact absurd (routes_eq_none_iff.mp hroutes) (h.not_circles List.mem_cons_self)
    | some outs' => rw [h.unique (delivers_of_routes hroutes record)]
  · intro h
    exact delivers_of_routes h record

end Abnf.Log.Network
