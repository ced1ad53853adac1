import Fabric.Description.Echo
import Fabric.Proofs.Failing
import Fabric.Proofs.RoundTrip

/-!
# What a parse gives can be written

A description that was read is well-formed (`Description.wellFormed_of_parse`), and the echo report
of a well-formed description is written (`Description.WellFormed.echo_ok`): its integers have few
enough digits, and each of its classes has a direction.
-/

namespace Fabric

namespace Description

/-! ## Descriptions that were read -/

section Parsed

variable {text source : String} {routing : Routing} {a : Description Binary64}

/-- An integer that was spelled is positive and may be written. -/
theorem integer_of_spells {f : Field} {v : Int} (hform : f.form? = some .integer)
    (h : ∃ tokens, f.Spells tokens (.integer v)) : 0 < v ∧ Numeral.isWritable v = true := by
  obtain ⟨tokens, form, hform', hspells⟩ := h
  cases hform.symm.trans hform'
  cases hspells with
  | integer hread hpos => exact ⟨hpos, Numeral.isWritable_of_read? hread⟩

/-- A description that was read is well-formed. -/
theorem wellFormed_of_parse (h : parseText text source routing = .ok a) : a.WellFormed := by
  obtain ⟨census, cited, rows, d, hcounts, hcited, hd, hpresent, hy⟩ := parseText_holds h
  obtain ⟨hreal, hunused⟩ := hd.real_of_yields hy
  have hclasses : a.numClasses = census.numClasses := by
    unfold numClasses
    rw [hy.classes, PinRow.classes, List.length_map, List.length_range]
  have hinteger : ∀ {f : Field} {v : Int}, f.form? = some .integer →
      a.value? f = some (.integer v) → 0 < v ∧ Numeral.isWritable v = true :=
    fun hform hv => integer_of_spells hform (hd.spells_of_value? hy hv)
  have hrow : ∀ row ∈ rows, row.classId < census.numClasses := by
    intro row hrow
    rw [← hcounts.mem_iff, ← hd.cited_eq hcited]
    exact List.mem_map_of_mem hrow
  exact {
    ioRat := hinteger (f := .ioRat) rfl rfl
    subblocksPerCluster := hinteger (f := .subblocksPerCluster) rfl rfl
    subblockLutSize := hinteger (f := .subblockLutSize) rfl rfl
    real := fun entry hentry => (hreal entry hentry).2
    unused := fun x hx => by
      rw [hunused x hx]
      rfl
    pins_ne := by
      have hpos := hd.numClasses_pos hcounts hcited hpresent
      have hmem := (hcounts.mem_iff 0).2 hpos
      rw [← hd.cited_eq hcited] at hmem
      obtain ⟨row, hmem, -⟩ := List.mem_map.1 hmem
      obtain ⟨i, hi⟩ := List.getElem?_of_mem hmem
      rw [hy.pins]
      exact List.ne_nil_of_mem (PinRow.mem_pins.2 ⟨i, row, hi, rfl⟩)
    pin := by
      intro i pin hpin
      rw [hy.pins, PinRow.getElem?_pins] at hpin
      obtain ⟨row, hi, rfl⟩ := Option.map_eq_some_iff.1 hpin
      have hmem := List.mem_of_getElem? hi
      obtain ⟨line, -, hspells⟩ := exists_of_mem_right hd.spelled hmem
      obtain ⟨side, hside⟩ := List.exists_mem_of_ne_nil _ hspells.sides_ne
      refine ⟨rfl, Int.natCast_nonneg _, ?_, fun hempty => ?_⟩
      · rw [hclasses]
        exact Int.ofNat_lt.2 (hrow row hmem)
      · have hcontains := Sides.contains_ofList.2 hside
        rw [show Sides.ofList row.sides = .empty from hempty] at hcontains
        cases side <;> cases hcontains
    pinClass := by
      intro c pinClass hclass
      obtain ⟨hid, -, hne, -, dir, hdir, -⟩ := pinClass_means hcounts hcited hd hy hclass
      refine ⟨hid, hdir ▸ Option.some_ne_none dir, hne, ?_⟩
      rw [hy.classes, PinRow.getElem?_classes] at hclass
      rw [hclass.2, hy.pins, PinRow.filter_pins] }

/-- A description that was read has at most one pin for each character of its text, and one more. -/
theorem length_pins_of_parse (h : parseText text source routing = .ok a) :
    a.pins.length ≤ text.length + 1 := by
  obtain ⟨census, cited, rows, d, -, -, hd, -, hy⟩ := parseText_holds h
  rw [hy.pins, PinRow.pins, List.length_mapIdx, ← hd.spelled.length_eq]
  exact length_pins_ofText text

end Parsed

/-! ## Echo reports -/

section Echo

variable {a : Description Binary64}

theorem brief_ok (x : Binary64) : WriteFault.brief x = .ok x.briefText := rfl

theorem channelEcho_ok (name : String) (c : Channel Binary64) :
    ∃ lines, c.echoLines name = .ok lines := ⟨_, rfl⟩

/-- A list is mapped if each of its entries is mapped to something. -/
theorem exists_mapM_ok {ε α β : Type} {f : α → Except ε β} {xs : List α}
    (h : ∀ x ∈ xs, ∃ y, f x = .ok y) : ∃ ys, xs.mapM f = .ok ys := by
  induction xs with
  | nil => exact ⟨[], rfl⟩
  | cons x xs ih =>
    obtain ⟨y, hy⟩ := h x List.mem_cons_self
    obtain ⟨ys, hys⟩ := ih fun x' hx' => h x' (List.mem_cons_of_mem _ hx')
    exact ⟨y :: ys, mapM_ok.2 (.cons hy (mapM_ok.1 hys))⟩

namespace WellFormed

variable (h : a.WellFormed) (hlen : a.pins.length ≤ Cells.maxInteger + 1)

include h hlen

theorem isWritable_index {pin : Pin} (hpin : pin ∈ a.pins) :
    Numeral.isWritable pin.index = true := by
  obtain ⟨i, hi⟩ := List.getElem?_of_mem hpin
  have hplace := (List.getElem?_eq_some_iff.1 hi).1
  rw [(h.pin i pin hi).1]
  exact Cells.isWritable_of_le (by omega)

theorem echoPin_ok {pin : Pin} (hpin : pin ∈ a.pins) : ∃ line, echoPin pin = .ok line :=
  ⟨_, except_bind_ok.2 ⟨_, integer_ok (h.isWritable_index hlen hpin), except_bind_ok.2
    ⟨_, integer_ok (h.isWritable_classId hlen hpin), rfl⟩⟩⟩

theorem echoClass_ok {pinClass : PinClass} (hclass : pinClass ∈ a.classes) :
    ∃ line, echoClass pinClass = .ok line := by
  obtain ⟨c, hc⟩ := List.getElem?_of_mem hclass
  obtain ⟨hid, hdir, -, hmembers⟩ := h.pinClass c pinClass hc
  obtain ⟨dir, hdir⟩ := Option.ne_none_iff_exists'.1 hdir
  have hcount : c < a.numClasses := (List.getElem?_eq_some_iff.1 hc).1
  have hclasses := h.numClasses_le
  have hlength : pinClass.members.length ≤ a.pins.length := by
    rw [hmembers, List.length_map]
    exact List.length_filter_le ..
  have hwritten : pinClass.members.mapM WriteFault.integer =
      .ok (pinClass.members.map Numeral.text) := by
    refine mapM_eq_map fun i hi => integer_ok ?_
    rw [hmembers] at hi
    obtain ⟨pin, hpin, rfl⟩ := List.mem_map.1 hi
    exact h.isWritable_index hlen (List.mem_of_mem_filter hpin)
  have hid_ok : WriteFault.integer pinClass.id = .ok (Numeral.text pinClass.id) :=
    integer_ok (hid ▸ Cells.isWritable_of_le (by omega))
  have hlength_ok : WriteFault.integer pinClass.members.length =
      .ok (Numeral.text pinClass.members.length) := integer_ok (Cells.isWritable_of_le (by omega))
  unfold echoClass
  simp only [hdir]
  exact ⟨_, except_bind_ok.2 ⟨_, hwritten, except_bind_ok.2 ⟨_, hid_ok,
    except_bind_ok.2 ⟨_, hlength_ok, rfl⟩⟩⟩⟩

/-- The echo report of a well-formed description is written. -/
theorem echo_ok (source : String) (routing : Routing) :
    ∃ text, a.echo source routing = .ok text := by
  obtain ⟨pins, hpins⟩ := exists_mapM_ok fun pin hpin => h.echoPin_ok hlen hpin
  obtain ⟨classes, hclasses⟩ := exists_mapM_ok fun pinClass hclass => h.echoClass_ok hlen hclass
  obtain ⟨x, hx⟩ := channelEcho_ok Field.chanWidthX.keyword a.chanX
  obtain ⟨y, hy⟩ := channelEcho_ok Field.chanWidthY.keyword a.chanY
  obtain ⟨lines, hlines⟩ : ∃ lines, a.echoLines source routing = .ok lines := by
    unfold echoLines
    simp only [integer_ok h.ioRat.2, integer_ok h.subblocksPerCluster.2,
      integer_ok h.subblockLutSize.2, brief_ok a.chanWidthIo, hx, hy, hpins, hclasses, bind,
      Except.bind]
    -- Only the parameters of detailed routing are left, and these are real values.
    split <;> exact ⟨_, rfl⟩
  exact ⟨_, except_bind_ok.2 ⟨lines, hlines, rfl⟩⟩

end WellFormed

end Echo

end Description

end Fabric
