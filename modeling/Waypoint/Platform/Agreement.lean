import Waypoint.Platform.Decode

/-!
# Two readers of one document

The agent decodes a descriptor into types that have zero values and then validates it; core asks for each key it needs.
-/

namespace Waypoint.Platform

open Base
open Waypoint.Core.Descriptor (stringAt parseDriver parseJoint addJoint parseWheel parseKinematics jointByName toInt32)

/-! ### Values -/

section Values

variable {v : Option Core.Toml} {s : String} {least most i : Int}

theorem getD_of_readString (h : readString v = some s) : (v.bind Core.Toml.stringValue).getD "" = s := by
  cases v with
  | none => exact Option.some.inj h
  | some v => exact congrArg (Option.getD · "") h

theorem stringValue_of_isSome (h : readString v = some s) (hv : v.isSome = true) :
    v.bind Core.Toml.stringValue = some s := by
  cases v with
  | none => cases hv
  | some v => exact h

theorem stringValue_of_ne (h : readString v = some s) (hs : s ≠ "") :
    v.bind Core.Toml.stringValue = some s := by
  refine stringValue_of_isSome h ?_
  cases v with
  | none => exact absurd (Option.some.inj h).symm hs
  | some v => rfl

theorem readInt_cases (h : readInt least most v = some i) :
    v = none ∧ i = 0 ∨ v = some (.integer i) ∧ least ≤ i ∧ i ≤ most := by
  unfold readInt at h
  split at h
  · exact .inl ⟨rfl, (Option.some.inj h).symm⟩
  · split at h
    · rename_i hbounds
      cases h
      exact .inr ⟨rfl, hbounds⟩
    · cases h
  · cases h

theorem integer_of_readInt (h : readInt least most v = some i) (hi : i ≠ 0) : v = some (.integer i) :=
  ((readInt_cases h).resolve_left fun hzero => hi hzero.2).1

theorem bounds_of_readInt (h : readInt least most v = some i) (hzero : least ≤ 0 ∧ 0 ≤ most) :
    least ≤ i ∧ i ≤ most := by
  rcases readInt_cases h with ⟨-, rfl⟩ | ⟨-, hbounds⟩
  · exact hzero
  · exact hbounds

theorem stringValue_unique {s' : String} (h : readString v = some s) (h' : v.bind Core.Toml.stringValue = some s') :
    s' = s := by
  rw [← getD_of_readString h, h', Option.getD_some]

theorem intValue_unique {i' : Int} (h : readInt least most v = some i)
    (h' : v.bind Core.Toml.intValue = some i') : i' = i := by
  rcases readInt_cases h with ⟨rfl, -⟩ | ⟨rfl, -⟩
  · cases h'
  · exact (Option.some.inj h').symm

theorem getD_of_readFloat {q : Rat} (h : readFloat v = some q) : (v.bind Core.Toml.doubleValue).getD 0 = q := by
  unfold readFloat at h
  split at h
  · exact Option.some.inj h
  · rename_i i
    split at h
    · have hdouble : Core.Toml.doubleValue (.integer i) = some (i : Rat) := if_pos (by omega)
      change (Core.Toml.doubleValue (.integer i)).getD 0 = q
      rw [hdouble]
      exact Option.some.inj h
    · cases h
  · exact Option.some.inj h
  · cases h

theorem table_of_readStruct {α : Type} {read : Core.Toml → Option α} {t : Core.Toml} {a : α}
    (h : readStruct read (some t) = some a) : t.asTable.isSome = true ∧ read t = some a := by
  cases t with
  | table entries => exact ⟨rfl, h⟩
  | _ => cases h

end Values

/-! ### Drivers -/

variable {t root : Core.Toml} {drivers : List (String × Driver)} {α : Type} {j : Joint} {acc out cs : List Core.Joint}
  {items : List Core.Toml} {joints : List Joint} {d : Descriptor} {k : Kinematics} {v : Option Core.Toml}

variable {drv : Driver} {entries : List (String × Core.Toml)} {el : Core.Toml} {β : Type}
  {cfgs : List (String × Core.DriverCfg)} {seen : List Joint} {wheels : List (String × String)}

theorem readDriver_eq_some (h : readDriver t = some drv) :
    readString (t.get "kind") = some drv.kind ∧ readString (t.get "port") = some drv.port := by
  simp only [readDriver, Option.bind_eq_bind, Option.bind_eq_some_iff] at h
  obtain ⟨kind, hkind, port, hport, baud, -, hout⟩ := h
  cases hout
  exact ⟨hkind, hport⟩

theorem parseDriver_of_read {e : String × Core.Toml} (hread : readStruct readDriver (some e.2) = some drv)
    (hcheck : checkDriver (e.1, drv) = .ok ()) (acc : List (String × Core.DriverCfg)) :
    ∃ cfg, parseDriver acc e = .ok (acc ++ [(e.1, cfg)]) := by
  obtain ⟨htable, hread⟩ := table_of_readStruct hread
  obtain ⟨entries, hentries⟩ := Option.isSome_iff_exists.mp htable
  obtain ⟨hkind, hport⟩ := readDriver_eq_some hread
  simp only [checkDriver, bind_eq_ok, require_eq_ok] at hcheck
  obtain ⟨_, hknown, hneeds⟩ := hcheck
  have hkind' : (stringAt e.2 "kind").getD "" = drv.kind := getD_of_readString hkind
  have hport' : (stringAt e.2 "port").getD "" = drv.port := getD_of_readString hport
  have hclosed : ¬(drv.kind ≠ "sts3215" ∧ drv.kind ≠ "sim") := by
    rintro ⟨hsts, hsim⟩
    simp only [driverKinds, List.mem_cons, List.not_mem_nil, or_false] at hknown
    exact hknown.elim hsts hsim
  refine ⟨⟨drv.kind, drv.port, toInt32 (((e.2.get "baud").bind Core.Toml.intValue).getD 1000000)⟩, ?_⟩
  unfold parseDriver
  rw [hentries]
  rw [hkind', hport', if_neg hclosed, if_neg hneeds]

theorem parse_drivers
    (hread : List.Forall₂ (fun e p => (readStruct readDriver (some e.2)).map (fun a => (e.1, a)) = some p) entries drivers)
    (hcheck : ∀ p ∈ drivers, checkDriver p = .ok ()) (acc : List (String × Core.DriverCfg)) :
    ∃ cfgs, entries.foldlM parseDriver acc = .ok (acc ++ cfgs) ∧
      cfgs.map Prod.fst = drivers.map Prod.fst := by
  induction hread generalizing acc with
  | nil => exact ⟨[], by rw [List.append_nil]; rfl, rfl⟩
  | @cons e p entries drivers hhead _ ih =>
    rw [List.forall_mem_cons] at hcheck
    obtain ⟨drv, hdrv, rfl⟩ := Option.map_eq_some_iff.mp hhead
    obtain ⟨cfg, hparse⟩ := parseDriver_of_read hdrv hcheck.1 acc
    obtain ⟨cfgs, hfold, hkeys⟩ := ih hcheck.2 (acc ++ [(e.1, cfg)])
    refine ⟨(e.1, cfg) :: cfgs, ?_, congrArg (e.1 :: ·) hkeys⟩
    rw [List.foldlM_cons, hparse, List.append_cons acc (e.1, cfg) cfgs]
    exact hfold

theorem lookup_isSome_iff (entries : List (String × α)) (key : String) :
    (entries.lookup key).isSome = true ↔ key ∈ entries.map Prod.fst := by
  simp only [List.lookup_isSome_iff, beq_iff_eq, List.mem_map, eq_comm (a := key)]

/-! ### Joints -/

structure SameJoint (j : Joint) (c : Core.Joint) : Prop where
  name : c.name = j.name
  driver : c.driver = j.driver
  busID : c.busId.toNat = j.busID.toNat
  type : c.type = j.type
  ownership : c.ownership = j.ownership

/-- What core asks of a joint beyond what the agent does. -/
structure Complete (t : Core.Toml) (j : Joint) : Prop where
  driver : (t.get "driver").isSome = true
  least : 1 ≤ j.busID.toNat
  most : j.busID.toNat ≤ 253

theorem readJoint_eq_some (h : readJoint t = some j) :
    readString (t.get "name") = some j.name ∧ readString (t.get "driver") = some j.driver ∧
      (∃ i, readInt 0 (2 ^ 32 - 1) (t.get "bus_id") = some i ∧ i.toNat = j.busID.toNat ∧ 0 ≤ i) ∧
      readString (t.get "type") = some j.type ∧ readString (t.get "ownership") = some j.ownership := by
  simp only [readJoint, Option.bind_eq_bind, Option.bind_eq_some_iff] at h
  obtain ⟨name, hname, driver, hdriver, busID, hbusID, type, htype, ownership, hownership, _, -, _, -, _, -, _, -, hout⟩ := h
  cases hout
  obtain ⟨hleast, hmost⟩ := bounds_of_readInt hbusID (by decide)
  refine ⟨hname, hdriver, ⟨busID, hbusID, ?_, hleast⟩, htype, hownership⟩
  rw [UInt32.toNat_ofNat_of_lt' (show busID.toNat < 2 ^ 32 by omega)]

theorem sameJoint_of_parseJoint {c : Core.Joint} (hread : readJoint t = some j)
    (hparse : parseJoint t = .ok c) : SameJoint j c ∧ Complete t j := by
  obtain ⟨hname, hdriver, ⟨i, hbusID, hi, hnonneg⟩, htype, hownership⟩ := readJoint_eq_some hread
  unfold parseJoint Core.Descriptor.fail at hparse
  split at hparse
  · rename_i name driver busId type ownership hname' hdriver' hbusId' htype' hownership'
    rw [ite_error_eq_ok] at hparse
    obtain ⟨hrange, hparse⟩ := hparse
    have hsome : (t.get "driver").isSome = true := by
      obtain ⟨v, hv, -⟩ := Option.bind_eq_some_iff.mp hdriver'
      rw [hv, Option.isSome_some]
    have hint : busId = i := intValue_unique hbusID hbusId'
    cases hparse
    refine ⟨⟨stringValue_unique hname hname', stringValue_unique hdriver hdriver', ?_, stringValue_unique htype htype',
      stringValue_unique hownership hownership'⟩, hsome, ?_, ?_⟩
    · rw [← hi, ← hint, UInt8.toNat_ofNat_of_lt' (show busId.toNat < 2 ^ 8 by omega)]
    · omega
    · omega
  · cases hparse

theorem parseJoint_of_read (hread : readJoint t = some j) (hname : j.name ≠ "")
    (htype : j.type ≠ "") (hownership : j.ownership ≠ "") (hcomplete : Complete t j) :
    ∃ c, parseJoint t = .ok c := by
  obtain ⟨rname, rdriver, ⟨i, rbusID, hi, hnonneg⟩, rtype, rownership⟩ := readJoint_eq_some hread
  have hleast := hcomplete.least
  have hmost := hcomplete.most
  have hinteger : (t.get "bus_id").bind Core.Toml.intValue = some i := by
    rw [integer_of_readInt rbusID (by omega)]
    rfl
  have hin : ¬(i < 1 ∨ i > 253) := by omega
  unfold parseJoint stringAt
  rw [stringValue_of_ne rname hname, stringValue_of_isSome rdriver hcomplete.driver, hinteger, stringValue_of_ne rtype htype,
    stringValue_of_ne rownership hownership]
  dsimp only
  rw [if_neg hin]
  exact ⟨_, rfl⟩

abbrev ReadJoints (items : List Core.Toml) (joints : List Joint) : Prop :=
  List.Forall₂ (fun el j => readStruct readJoint (some el) = some j) items joints

theorem addJoint_eq_ok {drivers : List (String × Core.DriverCfg)}
    (h : addJoint drivers acc el = .ok out) :
    ∃ c, parseJoint el = .ok c ∧ out = acc ++ [c] := by
  unfold addJoint Core.Descriptor.fail at h
  split at h
  · cases h
  simp only [bind_eq_ok, ite_error_eq_ok] at h
  obtain ⟨c, hparse, -, -, -, hout⟩ := h
  cases hout
  exact ⟨c, hparse, rfl⟩

theorem parsed_of_addJoints {drivers : List (String × Core.DriverCfg)}
    (hfold : items.foldlM (addJoint drivers) acc = .ok out) :
    ∃ cs, out = acc ++ cs ∧ List.Forall₂ (fun el c => parseJoint el = .ok c) items cs := by
  induction items generalizing acc with
  | nil =>
    cases hfold
    exact ⟨[], (List.append_nil _).symm, .nil⟩
  | cons el items ih =>
    rw [List.foldlM_cons, bind_eq_ok] at hfold
    obtain ⟨mid, hadd, hrest⟩ := hfold
    obtain ⟨c, hparse, rfl⟩ := addJoint_eq_ok hadd
    obtain ⟨cs, rfl, hparsed⟩ := ih hrest
    exact ⟨c :: cs, (List.append_cons acc c cs).symm, .cons hparse hparsed⟩

theorem forall₂_of_common {γ : Type} {P S : α → β → Prop} {Q : α → γ → Prop} {R : β → γ → Prop}
    (h : ∀ a b c, P a b → Q a c → R b c ∧ S a b) {as : List α} {bs : List β} {cs : List γ} (hP : List.Forall₂ P as bs)
    (hQ : List.Forall₂ Q as cs) : List.Forall₂ R bs cs ∧ List.Forall₂ S as bs := by
  induction hP generalizing cs with
  | nil =>
    cases hQ
    exact ⟨.nil, .nil⟩
  | cons hp _ ih =>
    cases hQ with
    | cons hq hQ =>
      obtain ⟨hr, hs⟩ := h _ _ _ hp hq
      exact ⟨.cons hr (ih hQ).1, .cons hs (ih hQ).2⟩

theorem same_of_addJoints {drivers : List (String × Core.DriverCfg)}
    (hread : ReadJoints items joints)
    (hfold : items.foldlM (addJoint drivers) acc = .ok out) :
    ∃ cs, out = acc ++ cs ∧ List.Forall₂ SameJoint joints cs ∧ List.Forall₂ Complete items joints := by
  obtain ⟨cs, rfl, hparsed⟩ := parsed_of_addJoints hfold
  refine ⟨cs, rfl, forall₂_of_common ?_ hread hparsed⟩
  exact fun el j c hel hc => sameJoint_of_parseJoint (table_of_readStruct hel).2 hc

def Distinct (j k : Joint) : Prop := j.name ≠ k.name ∧ (j.driver, j.busID) ≠ (k.driver, k.busID)

/-- The checks of the agent on a joint that core relies on. -/
structure CheckedJoint (drivers : List (String × Driver)) (j : Joint) : Prop where
  name : j.name ≠ ""
  driver : (drivers.lookup j.driver).isSome = true
  type : j.type ≠ ""
  ownership : j.ownership ≠ ""

theorem addJoint_of_read
    (hkeys : cfgs.map Prod.fst = drivers.map Prod.fst)
    (hread : readStruct readJoint (some el) = some j) (hchecked : CheckedJoint drivers j) (hcomplete : Complete el j)
    (hsame : List.Forall₂ SameJoint seen acc)
    (hdistinct : ∀ k ∈ seen, Distinct k j) :
    ∃ c, addJoint cfgs acc el = .ok (acc ++ [c]) ∧ SameJoint j c := by
  obtain ⟨htable, hread⟩ := table_of_readStruct hread
  obtain ⟨entries, hentries⟩ := Option.isSome_iff_exists.mp htable
  obtain ⟨c, hparse⟩ := parseJoint_of_read hread hchecked.name hchecked.type hchecked.ownership hcomplete
  obtain ⟨hj, -⟩ := sameJoint_of_parseJoint hread hparse
  have hapart : ∀ a ∈ acc, a.name ≠ c.name ∧ ¬(a.driver = c.driver ∧ a.busId = c.busId) := by
    intro a ha
    obtain ⟨n, hn, rfl⟩ := List.mem_iff_getElem.mp ha
    have hlength : n < seen.length := hsame.length_eq ▸ hn
    have hka : SameJoint seen[n] acc[n] := hsame.get hlength hn
    obtain ⟨hname, hbus⟩ := hdistinct _ (List.getElem_mem hlength)
    constructor
    · rw [hka.name, hj.name]
      exact hname
    rintro ⟨hdriver, hid⟩
    rw [hka.driver, hj.driver] at hdriver
    have hids : seen[n].busID = j.busID := UInt32.toNat_inj.mp (by rw [← hka.busID, ← hj.busID, hid])
    exact hbus (Prod.ext hdriver hids)
  have hdefined : ¬(cfgs.lookup c.driver).isNone = true := by
    rw [Bool.not_eq_true, Option.isNone_eq_false_iff, lookup_isSome_iff, hkeys, hj.driver, ← lookup_isSome_iff]
    exact hchecked.driver
  refine ⟨c, ?_, hj⟩
  have hname : ¬(acc.any fun k => decide (k.name = c.name)) = true := by
    simp only [List.any_eq_true, decide_eq_true_eq, not_exists, not_and]
    exact fun a ha => (hapart a ha).1
  have hbus : ¬(acc.any fun k => decide (k.driver = c.driver ∧ k.busId = c.busId)) = true := by
    simp only [List.any_eq_true, decide_eq_true_eq, not_exists, not_and]
    exact fun a ha hdriver hid => (hapart a ha).2 ⟨hdriver, hid⟩
  unfold addJoint
  rw [hentries]
  rw [hparse]
  change (if _ then _ else if _ then _ else if _ then _ else _) = _
  rw [if_neg hname, if_neg hdefined, if_neg hbus]

theorem addJoints_of_read
    (hkeys : cfgs.map Prod.fst = drivers.map Prod.fst)
    (hread : ReadJoints items joints) (hchecked : ∀ j ∈ joints, CheckedJoint drivers j)
    (hcomplete : List.Forall₂ Complete items joints)
    (hsame : List.Forall₂ SameJoint seen acc) (hdistinct : (seen ++ joints).Pairwise Distinct) :
    ∃ out, items.foldlM (addJoint cfgs) acc = .ok out := by
  induction hread generalizing seen acc with
  | nil => exact ⟨acc, rfl⟩
  | @cons el j items joints hhead _ ih =>
    rw [List.forall_mem_cons] at hchecked
    obtain ⟨hfirst, hrest⟩ := List.forall₂_cons.mp hcomplete
    have hbefore : ∀ k ∈ seen, Distinct k j := fun k hk =>
      (List.pairwise_append.mp hdistinct).2.2 k hk j List.mem_cons_self
    obtain ⟨c, hadd, hj⟩ := addJoint_of_read hkeys hhead hchecked.1 hfirst hsame hbefore
    rw [List.append_cons] at hdistinct
    obtain ⟨out, hfold⟩ := ih hchecked.2 hrest (List.rel_append hsame (.cons hj .nil)) hdistinct
    refine ⟨out, ?_⟩
    rw [List.foldlM_cons, hadd]
    exact hfold

theorem checked_of_validateJoints (h : d.validateJoints = .ok ()) :
    ∀ j ∈ d.joints, CheckedJoint d.drivers j := by
  obtain ⟨out, hfold, -⟩ := bind_eq_ok.mp h
  have hjoints : out = [] ++ d.joints :=
    foldlM_collect (fun _ _ _ hcheck => (Descriptor.checkJoint_eq_ok hcheck).1) hfold
  rw [List.nil_append] at hjoints
  rw [← hjoints]
  refine foldlM_invariant (fun out => ∀ j ∈ out, CheckedJoint d.drivers j) (fun seen j out hseen hcheck => ?_) d.joints
    (fun j hj => (List.not_mem_nil hj).elim) hfold
  simp only [checkJoint, bind_eq_ok, require_eq_ok] at hcheck
  obtain ⟨-, hname, -, -, -, hdriver, -, -, -, htype, -, hownership, -, -, -, -, -, -, hout⟩ := hcheck
  cases hout
  intro k hk
  rcases List.mem_append.mp hk with hk | hk
  · exact hseen k hk
  · rw [List.mem_singleton.mp hk]
    have hclosed : "" ∉ jointTypes ∧ "" ∉ ownerships := by decide
    exact ⟨hname, hdriver, fun heq => hclosed.1 (heq ▸ htype), fun heq => hclosed.2 (heq ▸ hownership)⟩

/-! ### Names -/

theorem find_reverse (h : joints.Pairwise fun j k => j.name ≠ k.name) (name : String) :
    joints.reverse.find? (fun j => j.name = name) = joints.find? fun j => j.name = name := by
  induction joints with
  | nil => rfl
  | cons j joints ih =>
    rw [List.pairwise_cons] at h
    rw [List.reverse_cons, List.find?_append, ih h.2]
    by_cases hname : j.name = name
    · have hothers : joints.find? (fun k => k.name = name) = none := by
        rw [List.find?_eq_none]
        intro k hk heq
        exact h.1 k hk (hname.trans (of_decide_eq_true heq).symm)
      rw [hothers, List.find?_cons, List.find?_cons, decide_eq_true hname]
      rfl
    · rw [List.find?_cons, List.find?_cons, decide_eq_false hname]
      exact Option.or_none

theorem find_rel {R : α → β → Prop} {f : α → String} {g : β → String} (hR : ∀ a b, R a b → g b = f a)
    {as : List α} {bs : List β} (h : List.Forall₂ R as bs) (name : String) :
    Option.Rel R (as.find? fun a => f a = name) (bs.find? fun b => g b = name) := by
  induction h with
  | nil => exact .none
  | @cons a b as bs hhead _ ih =>
    rw [List.find?_cons, List.find?_cons, hR a b hhead]
    by_cases hname : f a = name
    · rw [decide_eq_true hname]
      exact .some hhead
    · rw [decide_eq_false hname]
      exact ih

theorem find_same (h : List.Forall₂ SameJoint joints cs) (name : String) :
    Option.Rel SameJoint (joints.find? fun j => j.name = name) (jointByName cs name) :=
  find_rel (fun _ _ hsame => hsame.name) h name

theorem map_eq_of_rel {o : Option Joint} {o' : Option Core.Joint} (h : Option.Rel SameJoint o o') :
    o'.map (·.busId.toNat) = o.map (·.busID.toNat) := by
  cases h with
  | none => rfl
  | some hsame => exact congrArg some hsame.busID

theorem ownedIds_same (h : List.Forall₂ SameJoint joints cs) :
    ((cs.filter fun c => c.ownership = "platform").map Core.Joint.busId).map UInt8.toNat =
      ((joints.filter fun j => j.ownership = "platform").map (·.busID)).map UInt32.toNat := by
  induction h with
  | nil => rfl
  | @cons j c joints cs hhead _ ih =>
    rw [List.filter_cons, List.filter_cons, hhead.ownership]
    by_cases howned : j.ownership = "platform"
    · rw [decide_eq_true howned, if_pos rfl, if_pos rfl]
      simp only [List.map_cons, hhead.busID]
      exact congrArg _ ih
    · rw [decide_eq_false howned, if_neg Bool.false_ne_true, if_neg Bool.false_ne_true]
      exact ih

/-! ### Kinematics -/

theorem readKinematics_eq_some (h : readKinematics t = some k) :
    readString (t.get "model") = some k.model ∧ readFloat (t.get "wheel_radius_m") = some k.wheelRadiusM ∧
      readFloat (t.get "track_width_m") = some k.trackWidthM ∧ readMap readString (t.get "wheels") = some k.wheels := by
  simp only [readKinematics, Option.bind_eq_bind, Option.bind_eq_some_iff] at h
  obtain ⟨model, hmodel, radius, hradius, track, htrack, wheels, hwheels, hout⟩ := h
  cases hout
  exact ⟨hmodel, hradius, htrack, hwheels⟩

theorem parseWheels_of_read
    (h : List.Forall₂ (fun e w => (readString (some e.2)).map (fun s => (e.1, s)) = some w) entries wheels)
    (acc : List (String × String)) : entries.foldlM parseWheel acc = .ok (acc ++ wheels) := by
  induction h generalizing acc with
  | nil =>
    rw [List.append_nil]
    rfl
  | @cons e w entries wheels hhead _ ih =>
    obtain ⟨name, hname, rfl⟩ := Option.map_eq_some_iff.mp hhead
    have hparse : parseWheel acc e = .ok (acc ++ [(e.1, name)]) := by
      rw [parseWheel, show e.2.stringValue = some name from hname]
    rw [List.foldlM_cons, hparse, List.append_cons acc (e.1, name) wheels]
    exact ih _

theorem wheels_of_readMap (h : readMap readString v = some wheels) :
    ((v.bind Core.Toml.asTable).getD []).foldlM parseWheel [] = .ok wheels := by
  unfold readMap at h
  split at h
  · cases h
    rfl
  · exact parseWheels_of_read (mapM_eq_some.mp h) []
  · cases h

theorem checkWheel_of_check {pos : String} (hcheck : d.checkWheel k pos = .ok ())
    (hnames : d.joints.Pairwise fun j k => j.name ≠ k.name)
    (hsame : List.Forall₂ SameJoint d.joints cs) : Core.Descriptor.checkWheel k.wheels cs pos = .ok () := by
  unfold Descriptor.checkWheel at hcheck
  unfold Core.Descriptor.checkWheel
  cases hname : k.wheels.lookup pos with
  | none =>
    rw [hname] at hcheck
    cases hcheck
  | some name =>
    rw [hname] at hcheck
    dsimp only at hcheck ⊢
    have hfind := find_same hsame name
    rw [← find_reverse hnames] at hfind
    change Option.Rel SameJoint (d.byName name) _ at hfind
    generalize d.byName name = o at hcheck hfind
    generalize jointByName cs name = o' at hfind ⊢
    cases hfind with
    | none => cases hcheck
    | some hjc => exact if_neg (not_not_intro (hjc.type.trans (require_eq_ok.mp hcheck)))

theorem parseKinematics_of_read (hread : readKinematics t = some k)
    (hmodel : k.model = "diff_drive") (hpositive : ¬(k.wheelRadiusM ≤ 0 ∨ k.trackWidthM ≤ 0))
    (hcheck : ∀ pos ∈ wheelPositions, d.checkWheel k pos = .ok ())
    (hnames : d.joints.Pairwise fun j k => j.name ≠ k.name)
    (hsame : List.Forall₂ SameJoint d.joints cs) :
    parseKinematics t cs = .ok ⟨k.model, k.wheelRadiusM, k.trackWidthM, k.wheels⟩ := by
  obtain ⟨rmodel, rradius, rtrack, rwheels⟩ := readKinematics_eq_some hread
  have hforM : Core.Descriptor.wheelPositions.forM (Core.Descriptor.checkWheel k.wheels cs) = .ok () :=
    forM_eq_ok.mpr fun pos hpos => checkWheel_of_check (hcheck pos hpos) hnames hsame
  have hgood : ¬(k.model ≠ "diff_drive" ∨ k.wheelRadiusM ≤ 0 ∨ k.trackWidthM ≤ 0) := by
    rintro (hother | hzero)
    · exact hother hmodel
    · exact hpositive hzero
  unfold parseKinematics stringAt
  rw [getD_of_readString rmodel, getD_of_readFloat rradius, getD_of_readFloat rtrack, if_neg hgood, wheels_of_readMap rwheels]
  change (Core.Descriptor.wheelPositions.forM (Core.Descriptor.checkWheel k.wheels cs) >>= fun _ => _) = _
  rw [hforM]
  rfl

theorem parseKinematics_eq (hread : readKinematics t = some k)
    {ck : Core.DescriptorKinematics} (hparse : parseKinematics t cs = .ok ck) :
    ck = ⟨k.model, k.wheelRadiusM, k.trackWidthM, k.wheels⟩ := by
  obtain ⟨rmodel, rradius, rtrack, rwheels⟩ := readKinematics_eq_some hread
  simp only [parseKinematics, Core.Descriptor.fail, stringAt, ite_error_eq_ok, bind_eq_ok,
    getD_of_readString rmodel, getD_of_readFloat rradius, getD_of_readFloat rtrack] at hparse
  obtain ⟨-, wheels, hwheels, _, -, hout⟩ := hparse
  cases Except.ok.inj (hwheels.symm.trans (wheels_of_readMap rwheels))
  exact (Except.ok.inj hout).symm

/-! ### Documents -/

theorem readDescriptor_eq_some (h : readDescriptor root = some d) :
    readInt (-2 ^ 63) (2 ^ 63 - 1) (root.get "schema") = some d.schema ∧
      readStruct readPlatform (root.get "platform") = some d.platform ∧
      readMap (readStruct readDriver) (root.get "drivers") = some d.drivers ∧
      readSlice (readStruct readJoint) (root.get "joints") = some d.joints ∧
      readPointer (readStruct readKinematics) (root.get "kinematics") = some d.kinematics := by
  simp only [readDescriptor, Option.bind_eq_bind, Option.bind_eq_some_iff] at h
  obtain ⟨schema, hschema, platform, hplatform, drivers, hdrivers, joints, hjoints, kinematics, hkinematics, _, -, hout⟩ := h
  cases hout
  exact ⟨hschema, hplatform, hdrivers, hjoints, hkinematics⟩

def jointItems (root : Core.Toml) : List Core.Toml := ((root.get "joints").bind Core.Toml.asArray).getD []

theorem readJoints_of_read
    (h : readSlice (readStruct readJoint) (root.get "joints") = some joints) : ReadJoints (jointItems root) joints := by
  unfold jointItems
  unfold readSlice at h
  split at h
  · rename_i hget
    cases h
    rw [hget]
    exact .nil
  · rename_i hget
    rw [hget]
    exact mapM_eq_some.mp h
  · cases h

theorem drivers_of_read
    (h : readMap (readStruct readDriver) (root.get "drivers") = some drivers)
    (hcheck : ∀ p ∈ drivers, checkDriver p = .ok ()) :
    ∃ cfgs, (((root.get "drivers").bind Core.Toml.asTable).getD []).foldlM parseDriver [] = .ok cfgs ∧
      cfgs.map Prod.fst = drivers.map Prod.fst := by
  unfold readMap at h
  split at h
  · rename_i hget
    cases h
    rw [hget]
    exact ⟨[], rfl, rfl⟩
  · rename_i entries hget
    rw [hget]
    exact parse_drivers (mapM_eq_some.mp h) hcheck []
  · cases h

theorem platform_of_read {p : PlatformInfo} (h : readStruct readPlatform v = some p) :
    (v.bind fun t => stringAt t "id").getD "" = p.id ∧
      (v.bind fun t => stringAt t "vehicle_class").getD "" = p.vehicleClass := by
  have hfields : ∀ t, readPlatform t = some p →
      (stringAt t "id").getD "" = p.id ∧ (stringAt t "vehicle_class").getD "" = p.vehicleClass := by
    intro t ht
    simp only [readPlatform, Option.bind_eq_bind, Option.bind_eq_some_iff] at ht
    obtain ⟨id, hid, name, -, vehicleClass, hclass, hout⟩ := ht
    cases hout
    exact ⟨getD_of_readString hid, getD_of_readString hclass⟩
  unfold readStruct at h
  split at h
  · exact hfields _ h
  · exact hfields _ h
  · cases h

theorem kinematics_of_read {o : Option Kinematics}
    (h : readPointer (readStruct readKinematics) v = some o) :
    Option.Rel (fun t k => readKinematics t = some k) (v.filter fun t => t.asTable.isSome) o := by
  cases v with
  | none =>
    cases h
    exact .none
  | some t =>
    obtain ⟨k, hstruct, rfl⟩ := Option.map_eq_some_iff.mp h
    obtain ⟨htable, hread⟩ := table_of_readStruct hstruct
    have hfilter : (some t).filter (fun t => t.asTable.isSome) = some t := if_pos htable
    rw [hfilter]
    exact .some hread

/-- What the agent's validator says of an accepted descriptor, as far as core asks for it. -/
structure Validated (d : Descriptor) : Prop where
  schema : d.schema = 1
  id : d.platform.id ≠ ""
  drivers : ∀ p ∈ d.drivers, checkDriver p = .ok ()
  checked : ∀ j ∈ d.joints, CheckedJoint d.drivers j
  distinct : d.joints.Pairwise Distinct
  kinematics : d.platform.vehicleClass = "fixed_base" ∧ d.kinematics = none ∨
    d.platform.vehicleClass = "diff_drive_rover" ∧ ∃ k, d.kinematics = some k ∧ k.model = "diff_drive" ∧
      ¬(k.wheelRadiusM ≤ 0 ∨ k.trackWidthM ≤ 0) ∧ ∀ pos ∈ wheelPositions, d.checkWheel k pos = .ok ()

theorem validated_of_validate (h : d.validate = .ok ()) : Validated d := by
  simp only [Descriptor.validate, bind_eq_ok, require_eq_ok] at h
  obtain ⟨-, hschema, -, hid, -, hclass, _, hdrivers, _, hjoints, _, hkinematics, -⟩ := h
  refine ⟨hschema, hid, forM_eq_ok.mp hdrivers, checked_of_validateJoints hjoints,
    Descriptor.pairwise_of_validateJoints hjoints, ?_⟩
  unfold Descriptor.validateKinematics at hkinematics
  by_cases hfixed : d.platform.vehicleClass = "fixed_base"
  · rw [if_pos hfixed, require_eq_ok] at hkinematics
    exact .inl ⟨hfixed, Option.isNone_iff_eq_none.mp hkinematics⟩
  have hdrive : d.platform.vehicleClass = "diff_drive_rover" := by
    simp only [vehicleClasses, List.mem_cons, List.not_mem_nil, or_false] at hclass
    exact hclass.resolve_right hfixed
  rw [if_neg hfixed, if_neg (not_not_intro hdrive)] at hkinematics
  cases hk : d.kinematics with
  | none =>
    rw [hk] at hkinematics
    cases hkinematics
  | some k =>
    rw [hk] at hkinematics
    simp only [bind_eq_ok, require_eq_ok] at hkinematics
    obtain ⟨-, hmodel, -, hpositive, _, hwheels, -⟩ := hkinematics
    exact .inr ⟨hdrive, k, rfl, hmodel, hpositive, forM_eq_ok.mp hwheels⟩

section Documents

variable {root : Core.Toml} {d : Descriptor} (hread : readDescriptor root = some d) (hvalid : Validated d)

include hread hvalid

variable {c : Core.Descriptor}

/-- What core accepts, it builds from the joint tables and the kinematics table that the agent reads. -/
theorem parts_of_parse (h : Core.Descriptor.parse root = .ok c) :
    (∃ drivers, (jointItems root).foldlM (addJoint drivers) [] = .ok c.joints) ∧ c.joints ≠ [] ∧
      (d.kinematics = none ∧ c.kinematics = none ∨
        ∃ t k ck, d.kinematics = some k ∧ readKinematics t = some k ∧ c.kinematics = some ck ∧
          parseKinematics t c.joints = .ok ck) := by
  obtain ⟨-, rplatform, -, rjoints, rkinematics⟩ := readDescriptor_eq_some hread
  obtain ⟨-, rclass⟩ := platform_of_read rplatform
  simp only [Core.Descriptor.parse, Core.Descriptor.fail, ite_error_eq_ok, bind_eq_ok, rclass] at h
  obtain ⟨-, -, -, drivers, -, -, joints, hfold, hsome, h⟩ := h
  have hne : joints ≠ [] := fun hnil => hsome (by rw [hnil]; rfl)
  rcases hvalid.kinematics with ⟨hfixed, hnone⟩ | ⟨hdrive, k, hk, -⟩
  · rw [if_pos hfixed, ite_error_eq_ok] at h
    cases h.2
    exact ⟨⟨drivers, hfold⟩, hne, .inl ⟨hnone, rfl⟩⟩
  rw [if_neg (by rw [hdrive]; decide)] at h
  have hkin := kinematics_of_read rkinematics
  rw [hk] at hkin
  generalize (root.get "kinematics").filter (fun t => t.asTable.isSome) = o at hkin h
  cases hkin with
  | some hkin =>
    obtain ⟨ck, hparse, hout⟩ := bind_eq_ok.mp h
    cases hout
    exact ⟨⟨drivers, hfold⟩, hne, .inr ⟨_, k, ck, hk, hkin, rfl, hparse⟩⟩

/-- What core accepts, it reads as the agent does. -/
theorem same_of_parse (h : Core.Descriptor.parse root = .ok c) :
    List.Forall₂ SameJoint d.joints c.joints ∧ List.Forall₂ Complete (jointItems root) d.joints ∧ d.joints ≠ [] ∧
      c.kinematics.map (·.wheels) = d.kinematics.map (·.wheels) := by
  obtain ⟨⟨drivers, hfold⟩, hsome, hkinematics⟩ := parts_of_parse hread hvalid h
  obtain ⟨cs, hcs, hsame, hcomplete⟩ := same_of_addJoints (readJoints_of_read (readDescriptor_eq_some hread).2.2.2.1) hfold
  rw [List.nil_append] at hcs
  rw [← hcs] at hsame
  have hne : d.joints ≠ [] := by
    intro hnil
    rw [hnil, List.forall₂_nil_left_iff] at hsame
    exact hsome hsame
  refine ⟨hsame, hcomplete, hne, ?_⟩
  rcases hkinematics with ⟨hd, hc⟩ | ⟨t, k, ck, hd, hkin, hc, hparse⟩
  · rw [hd, hc]
    rfl
  · rw [hd, hc, parseKinematics_eq hkin hparse]
    rfl

theorem exists_parse (hcomplete : List.Forall₂ Complete (jointItems root) d.joints) (hne : d.joints ≠ []) :
    ∃ c, Core.Descriptor.parse root = .ok c := by
  obtain ⟨rschema, rplatform, rdrivers, rjoints, rkinematics⟩ := readDescriptor_eq_some hread
  obtain ⟨rid, rclass⟩ := platform_of_read rplatform
  obtain ⟨cfgs, hcfgs, hkeys⟩ := drivers_of_read rdrivers hvalid.drivers
  obtain ⟨cs, hcs⟩ := addJoints_of_read hkeys (readJoints_of_read rjoints) hvalid.checked hcomplete .nil hvalid.distinct
  obtain ⟨cs', hcs', hsame, -⟩ := same_of_addJoints (readJoints_of_read rjoints) hcs
  subst hcs'
  have hschema : (root.get "schema").bind Core.Toml.intValue = some 1 := by
    rw [hvalid.schema] at rschema
    rw [integer_of_readInt rschema one_ne_zero]
    rfl
  have hcfgsne : ¬cfgs.isEmpty = true := by
    intro hempty
    obtain ⟨j, hj⟩ := List.exists_mem_of_ne_nil _ hne
    have hdriver := (hvalid.checked j hj).driver
    rw [lookup_isSome_iff, ← hkeys, List.isEmpty_iff.mp hempty] at hdriver
    cases hdriver
  have hcsne : ¬cs.isEmpty = true := by
    intro hempty
    rw [List.isEmpty_iff.mp hempty, List.forall₂_nil_right_iff] at hsame
    exact hne hsame
  have hnames : d.joints.Pairwise fun j k => j.name ≠ k.name := hvalid.distinct.imp And.left
  simp only [Core.Descriptor.parse, Core.Descriptor.fail, ite_error_eq_ok, bind_eq_ok, rclass, rid, hschema]
  have hkin := kinematics_of_read rkinematics
  rcases hvalid.kinematics with ⟨hfixed, hnone⟩ | ⟨hdrive, k, hk, hmodel, hpositive, hwheels⟩
  · rw [hnone] at hkin
    generalize (root.get "kinematics").filter (fun t => t.asTable.isSome) = o at hkin ⊢
    cases hkin
    exact ⟨_, by decide, hvalid.id, by rw [hfixed]; decide, cfgs, hcfgs, hcfgsne, cs, hcs, hcsne, if_pos hfixed⟩
  · rw [hk] at hkin
    generalize (root.get "kinematics").filter (fun t => t.asTable.isSome) = o at hkin ⊢
    cases hkin with
    | some hkin =>
      have hparse := parseKinematics_of_read hkin hmodel hpositive hwheels hnames hsame
      have hmobile : ¬d.platform.vehicleClass = "fixed_base" := by
        rw [hdrive]
        decide
      exact ⟨_, by decide, hvalid.id, by rw [hdrive]; decide, cfgs, hcfgs, hcfgsne, cs, hcs, hcsne,
        (if_neg hmobile).trans (bind_eq_ok.mpr ⟨_, hparse, rfl⟩)⟩

end Documents

/-- The joints of a document that the agent accepts are all complete if each has a driver key and a servo's bus id. -/
theorem complete_iff (hread : ReadJoints items joints) :
    List.Forall₂ Complete items joints ↔
      (∀ j ∈ joints, 1 ≤ j.busID.toNat ∧ j.busID.toNat ≤ 253) ∧ ∀ t ∈ items, (t.get "driver").isSome = true := by
  induction hread with
  | nil => exact ⟨fun _ => ⟨fun j hj => (List.not_mem_nil hj).elim, fun t ht => (List.not_mem_nil ht).elim⟩, fun _ => .nil⟩
  | cons hhead _ ih =>
    rw [List.forall₂_cons, ih, List.forall_mem_cons, List.forall_mem_cons]
    constructor
    · rintro ⟨⟨hdriver, hleast, hmost⟩, hids, hdrivers⟩
      exact ⟨⟨⟨hleast, hmost⟩, hids⟩, hdriver, hdrivers⟩
    · rintro ⟨⟨⟨hleast, hmost⟩, hids⟩, hdriver, hdrivers⟩
      exact ⟨⟨hdriver, hleast, hmost⟩, hids, hdrivers⟩

/-- A document that the agent accepts is accepted by core exactly if it has joints, each with a `driver` key and a bus id between 1 and 253; and both derive the same from it. -/
theorem descriptor_readers_agree_iff (toml : TomlPackage) (root : Core.Toml) (hknown : known root = true) (d : Descriptor)
    (hparse : Descriptor.parse toml root = .ok d) :
    ((∃ c, Core.Descriptor.parse root = .ok c) ↔
      d.joints ≠ [] ∧ (∀ j ∈ d.joints, 1 ≤ j.busID.toNat ∧ j.busID.toNat ≤ 253) ∧
        ∀ t ∈ jointItems root, (t.get "driver").isSome = true) ∧
    ∀ c, Core.Descriptor.parse root = .ok c →
      c.platformOwnedBusIds.map UInt8.toNat = d.platformOwnedBusIDs.map UInt32.toNat ∧
      (∀ name, (jointByName c.joints name).map (·.busId.toNat) = (d.busIDFor name).map UInt32.toNat) ∧
      ∀ pos, (c.jointAt pos).map (·.busId.toNat) = (d.jointAt pos).map (·.busID.toNat) := by
  obtain ⟨hread, hvalidate⟩ := Descriptor.parse_eq_ok hknown hparse
  have hvalid := validated_of_validate hvalidate
  have hitems := readJoints_of_read (readDescriptor_eq_some hread).2.2.2.1
  have hnames : d.joints.Pairwise fun j k => j.name ≠ k.name := hvalid.distinct.imp And.left
  constructor
  · constructor
    · rintro ⟨c, hc⟩
      obtain ⟨-, hcomplete, hne, -⟩ := same_of_parse hread hvalid hc
      exact ⟨hne, (complete_iff hitems).mp hcomplete⟩
    · rintro ⟨hne, hcomplete⟩
      exact exists_parse hread hvalid ((complete_iff hitems).mpr hcomplete) hne
  · intro c hc
    obtain ⟨hsame, -, -, hwheels⟩ := same_of_parse hread hvalid hc
    refine ⟨ownedIds_same hsame, ?_, ?_⟩
    · intro name
      rw [Descriptor.busIDFor, Option.map_map]
      exact map_eq_of_rel (find_same hsame name)
    intro pos
    have hlookup : (c.kinematics.bind fun k => k.wheels.lookup pos) = d.kinematics.bind fun k => k.wheels.lookup pos := by
      have hbind := congrArg (Option.bind · fun wheels => wheels.lookup pos) hwheels
      rw [Option.bind_map, Option.bind_map] at hbind
      exact hbind
    rw [Core.Descriptor.jointAt, Descriptor.jointAt, hlookup]
    cases d.kinematics.bind fun k => k.wheels.lookup pos with
    | none => rfl
    | some name =>
      have hrel := find_same hsame name
      rw [← find_reverse hnames] at hrel
      exact map_eq_of_rel hrel

def TomlPackage.reader : TomlPackage where
  decode root :=
    match readDescriptor root with
    | some d => .ok (d, [])
    | none => .error "toml: incompatible types"
  reads root d undecoded _ h := by
    split at h
    · rename_i d' hread
      cases h
      exact hread
    · cases h

def benchDocument (busId : List (String × Core.Toml)) : Core.Toml :=
  .table [
    ("drivers", .table [("main", .table [("kind", .string "sim")])]),
    ("joints", .array [.table (busId ++ [("driver", .string "main"), ("name", .string "arm_1"),
      ("ownership", .string "module"), ("type", .string "revolute")])]),
    ("platform", .table [("id", .string "bench"), ("vehicle_class", .string "fixed_base")]),
    ("schema", .integer 1)]

def benchDescriptor (busID : UInt32) : Descriptor where
  schema := 1
  platform := { id := "bench", vehicleClass := "fixed_base" }
  drivers := [("main", { kind := "sim" })]
  joints := [{ name := "arm_1", driver := "main", busID, type := "revolute", ownership := "module" }]

theorem descriptor_readers_agree_iff_bench : ∃ c, Core.Descriptor.parse (benchDocument [("bus_id", .integer 1)]) = .ok c :=
  (descriptor_readers_agree_iff .reader (benchDocument [("bus_id", .integer 1)]) (by decide +kernel) (benchDescriptor 1)
    rfl).1.mpr ⟨by decide, by decide, by decide +kernel⟩

/-- Without a bus id the agent reads zero and accepts, and core refuses. -/
theorem missing_bus_id_accepted :
    known (benchDocument []) = true ∧ Descriptor.parse .reader (benchDocument []) = .ok (benchDescriptor 0) ∧
      Core.Descriptor.parse (benchDocument []) =
        .error "descriptor: joint missing required field (name/driver/bus_id/type/ownership)" :=
  ⟨by decide +kernel, rfl, rfl⟩

end Waypoint.Platform
