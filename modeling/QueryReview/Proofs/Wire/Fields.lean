-- What is read back from a document that was written, field by field. A field that must be there and
-- one that may be null, lists, and the entries of an object; and of the values in them all that
-- cannot be lost, whatever they are.
import QueryReview.Wire.View

namespace QueryReview.Wire

open QueryReview.Json (member? setMember)

variable {α β : Type} {write : α → Json} {read : Json → Option β} {view : α → β} {ok : α → Bool}

/-! ## Numbers -/

/-- A number that is not finite is written as null, and null is no number. -/
theorem readFloat_ofFloat (x : Float) :
    readFloat (.ofFloat x) = if x.isFinite then some x else none := by
  unfold Json.ofFloat
  split
  · rfl
  · rfl

theorem readFloat_of_isFinite {x : Float} (h : x.isFinite = true) :
    readFloat (.ofFloat x) = some x := by
  rw [readFloat_ofFloat, if_pos h]

theorem readNat_ofNat {most n : Nat} (h : n ≤ most) : readNat most (.ofNat n) = some n := by
  have hrange : (0 : Int) ≤ Int.ofNat n ∧ Int.ofNat n ≤ Int.ofNat most :=
    ⟨Int.natCast_nonneg n, Int.ofNat_le.mpr h⟩
  exact if_pos hrange

/-! ## Fields of a record -/

/-- A reader that takes null for no value. -/
def nullable (read : Json → Option β) : Json → Option (Option β)
  | .null => some none
  | j => (read j).map some

theorem nullable_of_ne_null {j : Json} (h : j ≠ .null) : nullable read j = (read j).map some := by
  unfold nullable
  split
  · exact absurd rfl h
  · rfl

/-- A value that may be absent, where a value that is there may be lost. -/
theorem nullable_ofOption_ite {o : Option α} (hnull : ∀ a ∈ o, write a ≠ .null)
    (hread : ∀ a ∈ o, read (write a) = if ok a then some (view a) else none) :
    nullable read (.ofOption write o) = if o.all ok then some (o.map view) else none := by
  cases o with
  | none => rfl
  | some a =>
    rw [Json.ofOption, nullable_of_ne_null (hnull a rfl), hread a rfl, Option.all_some]
    cases ok a <;> rfl

theorem nullable_ofOption {o : Option α} (hnull : ∀ a ∈ o, write a ≠ .null)
    (hread : ∀ a ∈ o, read (write a) = some (view a)) :
    nullable read (.ofOption write o) = some (o.map view) := by
  have hite : nullable read (.ofOption write o)
      = if o.all fun _ => true then some (o.map view) else none :=
    nullable_ofOption_ite hnull fun a ha => by rw [hread a ha]; rfl
  rw [hite]
  cases o <;> rfl

theorem nullable_string (o : Option String) :
    nullable readString (.ofOption .string o) = some o := by
  cases o <;> rfl

theorem nullable_float {o : Option Float} (h : ∀ x ∈ o, x.isFinite = true) :
    nullable readFloat (.ofOption .ofFloat o) = some o := by
  have hdecimal : ∀ x ∈ o, Json.ofFloat x = .decimal x := fun x hx => if_pos (h x hx)
  have hnull : ∀ x ∈ o, Json.ofFloat x ≠ .null := fun x hx => by simp [hdecimal x hx]
  have hread : ∀ x ∈ o, readFloat (.ofFloat x) = some (id x) :=
    fun x hx => readFloat_of_isFinite (h x hx)
  rw [nullable_ofOption hnull hread, Option.map_id, id]

theorem nullable_nat {most : Nat} {o : Option Nat} (h : ∀ n ∈ o, n ≤ most) :
    nullable (readNat most) (.ofOption .ofNat o) = some o := by
  have hnull : ∀ n ∈ o, Json.ofNat n ≠ .null := fun n _ => by simp [Json.ofNat]
  have hread : ∀ n ∈ o, readNat most (.ofNat n) = some (id n) := fun n hn => readNat_ofNat (h n hn)
  rw [nullable_ofOption hnull hread, Option.map_id, id]

/-! ## Records, field by field -/

section
variable {γ : Type} {members : List (String × Json)} {name : String} {place : Nat} {j : Json}
  {b : β} {o : Option β} {rest : Option γ}

theorem bind_object {size : Nat} {next : Record → Option γ} (h : next (.named members) = rest) :
    (Record.of? size (.object members) >>= next) = rest := h

theorem bind_required {next : β → Option γ} (hm : member? name members = some j)
    (hread : read j = some b) (h : next b = rest) :
    ((Record.named members).required place name read >>= next) = rest := by
  simp only [Record.required, Record.field?, hm, Option.bind_some, hread]
  exact h

theorem optional_named (hm : member? name members = some j) :
    (Record.named members).optional place name read = nullable read j := by
  simp only [Record.optional, Record.field?, hm]
  cases j <;> rfl

theorem bind_optional {next : Option β → Option γ} (hm : member? name members = some j)
    (hread : nullable read j = some o) (h : next o = rest) :
    ((Record.named members).optional place name read >>= next) = rest := by
  rw [optional_named hm, hread]
  exact h

/-- A record is lost with a field that is lost. -/
theorem bind_required_ite {next : β → Option γ} {found : Bool} {c : γ}
    (hm : member? name members = some j) (hread : read j = if found then some b else none)
    (h : next b = some c) :
    ((Record.named members).required place name read >>= next)
      = if found then some c else none := by
  cases found with
  | true => exact bind_required hm hread h
  | false => simp only [Record.required, Record.field?, hm, Option.bind_some, hread]; rfl

theorem bind_optional_ite {next : Option β → Option γ} {found : Bool} {c : γ}
    (hm : member? name members = some j) (hread : nullable read j = if found then some o else none)
    (h : next o = some c) :
    ((Record.named members).optional place name read >>= next)
      = if found then some c else none := by
  rw [optional_named hm, hread]
  cases found with
  | true => exact h
  | false => rfl

end

/-! ## Lists -/

/-- A list is lost with any of its items. -/
theorem readList_map_ite {items : List α}
    (h : ∀ a ∈ items, read (write a) = if ok a then some (view a) else none) :
    readList read (.array (items.map write))
      = if items.all ok then some (items.map view) else none := by
  simp only [readList]
  induction items with
  | nil => rfl
  | cons a items ih =>
    obtain ⟨hfirst, hrest⟩ := List.forall_mem_cons.mp h
    rw [List.map_cons, List.mapM_cons, hfirst, ih hrest, List.all_cons]
    cases ok a <;> cases items.all ok <;> rfl

theorem readList_map {write : α → Json} {read : Json → Option α} {items : List α}
    (h : ∀ a ∈ items, read (write a) = some a) :
    readList read (.array (items.map write)) = some items := by
  have hread : readList read (.array (items.map write))
      = if items.all fun _ => true then some (items.map id) else none :=
    readList_map_ite fun a ha => by rw [h a ha]; rfl
  rwa [List.map_id, if_pos (List.all_eq_true.mpr fun _ _ => rfl)] at hread

theorem readList_ofStrings (texts : List String) :
    readList readString (.ofStrings texts) = some texts :=
  readList_map fun _ _ => rfl

/-! ## Entries of an object -/

theorem names_setEntry (name : String) (a : α) (entries : List (String × α)) :
    (setEntry name a entries).map Prod.fst
      = if name ∈ entries.map Prod.fst then entries.map Prod.fst
        else entries.map Prod.fst ++ [name] := by
  induction entries with
  | nil => rfl
  | cons first rest ih =>
    obtain ⟨key, old⟩ := first
    rw [setEntry]
    by_cases hkey : key = name
    · simp [hkey]
    · have hne : name ≠ key := Ne.symm hkey
      simp only [if_neg hkey, List.map_cons, ih, List.mem_cons, hne, false_or]
      split <;> rfl

theorem setEntry_of_not_mem {name : String} {entries : List (String × α)}
    (h : name ∉ entries.map Prod.fst) (a : α) :
    setEntry name a entries = entries ++ [(name, a)] := by
  induction entries with
  | nil => rfl
  | cons first rest ih =>
    obtain ⟨key, old⟩ := first
    rw [List.map_cons, List.mem_cons, not_or] at h
    rw [setEntry, if_neg (Ne.symm h.1), ih h.2]
    rfl

theorem nodup_setEntry {entries : List (String × α)} (h : (entries.map Prod.fst).Nodup)
    (name : String) (a : α) : ((setEntry name a entries).map Prod.fst).Nodup := by
  rw [names_setEntry]
  split
  · exact h
  · rename_i hnew
    refine List.nodup_append.mpr ⟨h, List.pairwise_singleton _ _, ?_⟩
    rintro key hkey _ hname rfl
    exact hnew (List.mem_singleton.mp hname ▸ hkey)

theorem mem_setEntry {name : String} {a : α} {entries : List (String × α)} {e : String × α}
    (h : e ∈ setEntry name a entries) : e ∈ entries ∨ e.2 = a := by
  induction entries with
  | nil =>
    rw [List.mem_singleton.mp h]
    exact .inr rfl
  | cons first rest ih =>
    obtain ⟨key, old⟩ := first
    rw [setEntry] at h
    split at h
    · rcases List.mem_cons.mp h with rfl | h
      · exact .inr rfl
      · exact .inl (List.mem_cons_of_mem _ h)
    · rcases List.mem_cons.mp h with rfl | h
      · exact .inl List.mem_cons_self
      · exact (ih h).imp (List.mem_cons_of_mem _) id

/-- What is written under names in turn are the entries that are made in turn. -/
theorem setMember_map (name : String) (a : α) (entries : List (String × α)) :
    setMember name (write a) (entries.map fun e => (e.1, write e.2))
      = (setEntry name a entries).map fun e => (e.1, write e.2) := by
  induction entries with
  | nil => rfl
  | cons first rest ih =>
    obtain ⟨key, old⟩ := first
    simp only [List.map_cons, setMember, setEntry, ih]
    split <;> rfl

/-- Entries with different names come back in their order. -/
theorem readEntries_map {entries : List (String × α)} {read : Json → Option α}
    (h : ∀ e ∈ entries, read (write e.2) = some e.2) (hnodup : (entries.map Prod.fst).Nodup) :
    readEntries read (.object (entries.map fun e => (e.1, write e.2))) = some entries := by
  suffices hfold : ∀ done : List (String × α), ((done ++ entries).map Prod.fst).Nodup →
      (entries.map fun e => (e.1, write e.2)).foldlM
        (fun entries (e : String × Json) => (read e.2).map fun a => setEntry e.1 a entries) done
        = some (done ++ entries) from hfold [] hnodup
  induction entries with
  | nil =>
    intro done _
    simp
  | cons first rest ih =>
    intro done hdone
    have hnew : first.1 ∉ done.map Prod.fst := by
      rw [List.map_append, List.map_cons] at hdone
      exact fun hmem => (List.nodup_append.mp hdone).2.2 _ hmem _ List.mem_cons_self rfl
    have hmore : ((done ++ [first] ++ rest).map Prod.fst).Nodup := by simpa using hdone
    obtain ⟨hfirst, hrest⟩ := List.forall_mem_cons.mp h
    rw [List.map_cons, List.foldlM_cons, hfirst, Option.map_some, setEntry_of_not_mem hnew]
    simpa using ih hrest (List.nodup_cons.mp hnodup).2 (done ++ [first]) hmore

/-! ## Verdicts, warnings and records of tables -/

theorem readVerdict_ofVerdict (v : Statement.Verdict) : readVerdict (ofVerdict v) = some v := by
  cases v with
  | safe => rfl
  | blocked reason => cases reason <;> rfl

theorem readWarning_ofWarning (w : Plan.Warning) : readWarning (ofWarning w) = some w := by
  obtain ⟨kind, severity, operation, message⟩ := w
  cases kind <;> cases severity <;> rfl

theorem readColumn_ofColumn (c : Catalog.Column) : readColumn (ofColumn c) = some c := by
  obtain ⟨name, dataType, nullable, key, defaultValue, extra⟩ := c
  cases key <;> cases defaultValue <;> rfl

theorem readIndexPart_ofIndexPart {p : Catalog.IndexPart} (h : p.place ≤ max32) :
    readIndexPart (ofIndexPart p) = some p := by
  refine bind_object ?_
  refine bind_required rfl rfl ?_
  refine bind_required rfl rfl ?_
  refine bind_required rfl rfl ?_
  refine bind_optional rfl (nullable_string p.column) ?_
  exact bind_required rfl (readNat_ofNat h) rfl

end QueryReview.Wire
