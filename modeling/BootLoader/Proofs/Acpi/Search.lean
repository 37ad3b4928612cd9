import BootLoader.Proofs.Acpi.Walk

/-! The search through the table of tables, whatever bytes it is made of. The first entry that leads
to the name decides, well-formed or not: entries before it are passed over, and those after it are
not looked at. -/

namespace BootLoader.Acpi

variable {m : Memory} {a : Address} {wanted : TableSignature} {as passed rest : List Address}

/-- A run ends where the property ends. -/
theorem span_of_split {α : Type} {p : α → Bool} {x : α} {front back : List α}
    (hfront : ∀ y ∈ front, p y = true) (hx : p x = false) :
    (front ++ x :: back).span p = (front, x :: back) := by
  rw [List.span_eq_takeWhile_dropWhile, List.takeWhile_append_of_pos hfront,
    List.dropWhile_append_of_pos hfront, List.takeWhile_cons, List.dropWhile_cons, hx]
  simp only [Bool.false_eq_true, if_false, List.append_nil]

/-- The address is null, or four bytes cannot be read there, or they spell another name. -/
def PassedOver (m : Memory) (a : Address) (wanted : TableSignature) : Prop :=
  a = .zero ∨ m.read? a 4 = none ∨ ∃ bs, m.read? a 4 = some bs ∧ bs.toList ≠ wanted.bytes

theorem not_names_iff : ¬ Names m a wanted ↔ PassedOver m a wanted := by
  unfold Names PassedOver
  rw [Classical.not_and_iff_not_or_not, Classical.not_not]
  refine or_congr_right ?_
  cases m.read? a 4 <;> simp

structure FirstMatch (m : Memory) (as : List Address) (wanted : TableSignature) (i : Nat)
    (a : Address) : Prop where
  entry : as[i]? = some a
  names : Names m a wanted
  before : ∀ b ∈ as.take i, ¬ Names m b wanted

theorem FirstMatch.split {i : Nat} (h : FirstMatch m as wanted i a) :
    ∃ rest, as = as.take i ++ a :: rest := by
  obtain ⟨hi, ha⟩ := List.getElem?_eq_some_iff.mp h.entry
  refine ⟨as.drop (i + 1), ?_⟩
  rw [← ha, ← List.drop_eq_getElem_cons hi, List.take_append_drop]

theorem view_congr {m' : Memory} {n : Nat} (h : m'.read? a n = m.read? a n) :
    view m' a n = view m a n := by
  have hread : Mapping.read? m' a n = Mapping.read? m a n := h
  rw [view, view, hread]

/-- A table is loaded from what can be read at its address. -/
theorem Table.load_congr {m' : Memory} {expected : Option TableSignature}
    (h : ∀ n, m'.read? a n = m.read? a n) : Table.load m' a expected = Table.load m a expected := by
  unfold Table.load
  simp only [view_congr (h _)]

namespace RootTable

variable {t : RootTable}

theorem length_entries (t : RootTable) : t.entries.length = t.count := by
  rw [entries_eq_map, List.length_map, List.length_range]

theorem getElem_entries (t : RootTable) (i : Nat) (h : i < t.entries.length) :
    t.entries[i] = .ofNat (t.table.body.field (i * t.width.bytes) t.width.bytes) := by
  simp only [entries_eq_map, List.getElem_map, List.getElem_range]

/-- A search that ends with a match has looked at the entries up to it. -/
theorem find_of_split (hsplit : t.entries = passed ++ a :: rest) (hname : Names m a wanted)
    (hpassed : ∀ b ∈ passed, ¬ Names m b wanted) :
    find m t wanted =
      ⟨describe m t.width.signature.render (passed ++ [a]), Table.load m a (some wanted)⟩ := by
  have hspan : t.entries.span (fun b => target m b ≠ .table wanted) = (passed, a :: rest) := by
    rw [hsplit]
    refine span_of_split (fun b hb => ?_) ?_
    · exact decide_eq_true (mt target_eq_table.mp (hpassed b hb))
    · exact decide_eq_false (not_not_intro (target_eq_table.mpr hname))
  unfold find
  rw [hspan]
  exact congrArg (Logged.mk · _) (List.append_nil _)

/-- What an address leads to is told by four bytes, of which none is read if it is null. -/
theorem target_congr {m' : Memory} (h : a ≠ .zero → m'.read? a 4 = m.read? a 4) :
    target m' a = target m a := by
  unfold target
  split
  · rfl
  · rename_i hnull
    rw [view_congr (h (mt Address.isNull_iff.mpr hnull))]

theorem describe_congr {m' : Memory} {what : String} (h : ∀ b ∈ as, target m' b = target m b) :
    describe m' what as = describe m what as := by
  unfold describe
  refine List.map_congr_left fun (b, i) hp => ?_
  exact congrArg (Target.describe what i b) (h b (List.fst_mem_of_mem_zipIdx hp))

/-- No entry behind the match is consulted: neither what it is nor what it leads to makes a
difference. -/
theorem find_congr {m' : Memory} {t' : RootTable} {i : Nat}
    (h : FirstMatch m t.entries wanted i a) (hwidth : t'.width = t.width)
    (hentries : t'.entries.take (i + 1) = t.entries.take (i + 1))
    (hbefore : ∀ b ∈ t.entries.take i, b ≠ .zero → m'.read? b 4 = m.read? b 4)
    (hmatch : ∀ n, m'.read? a n = m.read? a n) : find m' t' wanted = find m t wanted := by
  obtain ⟨rest, hsplit⟩ := h.split
  have htarget : ∀ b ∈ t.entries.take i ++ [a], target m' b = target m b := by
    intro b hb
    rw [List.mem_append, List.mem_singleton] at hb
    rcases hb with hb | rfl
    · exact target_congr (hbefore b hb)
    · exact target_congr fun _ => hmatch 4
  have hfirst : t'.entries.take (i + 1) = t.entries.take i ++ [a] := by
    rw [hentries, List.take_add_one, h.entry]
    rfl
  have hsplit' : t'.entries = t.entries.take i ++ a :: t'.entries.drop (i + 1) := by
    rw [← List.singleton_append, ← List.append_assoc, ← hfirst, List.take_append_drop]
  have hpassed : ∀ b ∈ t.entries.take i, ¬ Names m' b wanted := by
    intro b hb
    rw [← target_eq_table, htarget b (List.mem_append_left _ hb), target_eq_table]
    exact h.before b hb
  have hname : Names m' a wanted := by
    rw [← target_eq_table, htarget a (List.mem_append_right _ List.mem_cons_self), target_eq_table]
    exact h.names
  rw [find_of_split hsplit h.names h.before, find_of_split hsplit' hname hpassed, hwidth,
    describe_congr htarget, Table.load_congr hmatch]

theorem find?_eq_none (h : ∀ b ∈ as, ¬ Names m b wanted) :
    as.find? (fun b => target m b = .table wanted) = none := by
  refine List.find?_eq_none.mpr fun b hb => ?_
  rw [decide_eq_true_iff, target_eq_table]
  exact h b hb

/-- Entries that are passed over may be anywhere. -/
theorem find_of_inserted {t' : RootTable} {inserted : List Address}
    (h : t.entries = passed ++ rest) (h' : t'.entries = passed ++ inserted ++ rest)
    (hinserted : ∀ b ∈ inserted, ¬ Names m b wanted) :
    (find m t' wanted).result = (find m t wanted).result := by
  rw [find_result, find_result, h, h', List.find?_append, List.find?_append, List.find?_append,
    find?_eq_none hinserted, Option.or_none]

/-- Of the entries, as many as there is room for and each spelled by its bytes, the first that leads
to the name is loaded, come what may, and none behind it is consulted; without one, none is found.
Entries that are passed over make no difference wherever they are. -/
theorem find_first_match (m : Memory) (t : RootTable) (wanted : TableSignature) :
    (t.entries.length = t.count ∧ t.count = t.table.body.size / t.width.bytes ∧
      ∀ i (h : i < t.entries.length), t.entries[i] =
        .ofNat (t.table.body.field (i * t.width.bytes) t.width.bytes)) ∧
    (∀ i a, FirstMatch m t.entries wanted i a →
      (find m t wanted).result = Table.load m a (some wanted) ∧
      ∀ (m' : Memory) (t' : RootTable), t'.width = t.width →
        t'.entries.take (i + 1) = t.entries.take (i + 1) →
        (∀ b ∈ t.entries.take i, b ≠ .zero → m'.read? b 4 = m.read? b 4) →
        (∀ n, m'.read? a n = m.read? a n) → find m' t' wanted = find m t wanted) ∧
    ((∀ a ∈ t.entries, ¬ Names m a wanted) →
      (find m t wanted).result = .error (.signatureNotFound wanted)) ∧
    ∀ (t' : RootTable) (front inserted back : List Address), t.entries = front ++ back →
      t'.entries = front ++ inserted ++ back → (∀ b ∈ inserted, PassedOver m b wanted) →
      (find m t' wanted).result = (find m t wanted).result := by
  refine ⟨⟨length_entries t, rfl, getElem_entries t⟩, fun i a h => ⟨?_, ?_⟩, fun hnone => ?_, ?_⟩
  · obtain ⟨rest, hsplit⟩ := h.split
    rw [find_of_split hsplit h.names h.before]
  · intro m' t' hwidth hentries hbefore hmatch
    exact find_congr h hwidth hentries hbefore hmatch
  · rw [find_result, find?_eq_none hnone]
  · intro t' front inserted back h h' hinserted
    exact find_of_inserted h h' fun b hb => not_names_iff.mpr (hinserted b hb)

end RootTable

namespace Sample

/-- A header with a name and a length of 10 at 0x3000, before the tables of the other sample. -/
def crowded : Memory :=
  ⟨⟨.ofNat 0x3000, .ofList (padded 36 [0x46, 0x41, 0x43, 0x50, 10])⟩ :: memory.windows⟩

/-- Five addresses: null, one that leads nowhere, one of byte code, and two with the name, of which
the first is that of the bare header; and three bytes of a sixth one. -/
def roots : RootTable where
  table := {
    address := .ofNat 0x4000
    header := ⟨.rsdt, 59, 1, 0, .blank 6, .blank 8, 0, .blank 4, 0⟩
    bytes := .ofList (padded 36 [] ++ [0, 0, 0, 0] ++ [0, 0x90, 0, 0] ++ [0xA0, 0x10, 0, 0] ++
      [0, 0x30, 0, 0] ++ [0x70, 0x10, 0, 0] ++ [0x70, 0x10, 0]) }
  width := .legacy

end Sample

/-- The bare header comes first, and the table behind it would have been all right. -/
theorem find_first_match_sample :
    FirstMatch Sample.crowded Sample.roots.entries .facp 3 (.ofNat 0x3000) ∧
      (RootTable.find Sample.crowded Sample.roots .facp).result =
        .error (.badLength (.ofNat 0x3000) 10) ∧
      Sample.roots.entries.length = 5 ∧ Sample.roots.entries[4]? = some (.ofNat 0x1070) ∧
      (Table.load Sample.crowded (.ofNat 0x1070) (some .facp)).toBool = true := by
  have hfirst : FirstMatch Sample.crowded Sample.roots.entries .facp 3 (.ofNat 0x3000) := by
    refine ⟨by decide +kernel, ?_, ?_⟩
    · rw [← RootTable.target_eq_table]
      decide +kernel
    · simp only [← RootTable.target_eq_table]
      decide +kernel
  obtain ⟨⟨hcount, -⟩, hmatch, -⟩ := RootTable.find_first_match Sample.crowded Sample.roots .facp
  refine ⟨hfirst, (hmatch 3 _ hfirst).1.trans ?_, hcount.trans ?_, ?_, ?_⟩ <;> decide +kernel

end BootLoader.Acpi
