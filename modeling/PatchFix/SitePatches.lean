import PatchFix.HookAttribution

/-!
Writes of one width to one address, any of which the system may refuse: the image holds the last one
that was granted, and the registry the bytes that were there before the first.
-/

namespace PatchFix

theorem PatchTable.registerPatch_present {table : PatchTable} {base : UInt64}
    (present : ∃ entry ∈ table.entries, entry.base = base) (size : UInt64)
    (original : List UInt8) (hookName : Text) (type : PatchType) :
    table.registerPatch base size original hookName type = table := by
  obtain ⟨found, member, same⟩ := present
  have unchanged : insertEntry (PatchEntry.make base size original hookName type) table.entries =
      table.entries := by
    rw [insertEntry_eq_insertNew]
    rcases SortedSearch.insertNew_cases (SortedSearch.places_toNat PatchEntry.base _)
      table.increasing.ascending with ⟨_, result⟩ | ⟨above, _⟩
    · exact result
    · have split : table.entries = table.entries.takeWhile (fun other => other.base < base) ++
          table.entries.dropWhile (fun other => other.base < base) :=
        List.takeWhile_append_dropWhile.symm
      rw [split] at member
      rcases List.mem_append.mp member with before | after
      · have below := List.all_eq_true.mp List.all_takeWhile found before
        simp [same] at below
      · have larger := above found after
        simp [PatchEntry.make, same] at larger
  cases table with
  | mk entries increasing =>
      simp only [PatchTable.registerPatch, PatchTable.mk.injEq]
      exact unchanged

namespace WriteCall

variable {system : System} {call : WriteCall} {start process : Process} {site : UInt64}
variable {width : Nat} {last : Option (List UInt8)}

/-- `last` is what the latest write that was granted stored at the site. -/
structure WrittenAt (site : UInt64) (width : Nat) (start : Process) (last : Option (List UInt8))
    (process : Process) : Prop where
  name : process.currentHookName = start.currentHookName
  sized : ∀ bytes ∈ last, bytes.length = width
  image : process.image =
    last.elim start.image fun bytes => ByteImage.overlay start.image site bytes
  patches : process.patches = if last.isSome then
    start.patches.registerPatch site (UInt64.ofNat width)
      (ByteImage.read start.image site width) start.currentHookName .byteWrite else start.patches

theorem writtenAt_start (site : UInt64) (width : Nat) (start : Process) :
    WrittenAt site width start none start :=
  ⟨rfl, by simp, rfl, rfl⟩

theorem overlay_overlay {image : ByteImage.Image} {bytes later : List UInt8}
    (same : bytes.length = later.length) :
    ByteImage.overlay (ByteImage.overlay image site bytes) site later =
      ByteImage.overlay image site later := by
  funext address
  unfold ByteImage.overlay
  cases here : later[ByteImage.offset site address]? with
  | some byte => rfl
  | none =>
      have outside : bytes[ByteImage.offset site address]? = none := by
        rw [List.getElem?_eq_none_iff] at here ⊢
        omega
      simp [outside]

/-- The registration is of the width at the site whatever the call was. -/
theorem WrittenAt.perform (held : WrittenAt site width start last process)
    (named : start.currentHookName ≠ []) (address : call.address = site)
    (length : call.bytes.length = width) :
    WrittenAt site width start
      (if (call.perform system process).1 then some call.bytes else last)
      (call.perform system process).2 := by
  rcases run : call.perform system process with ⟨granted, after⟩
  cases granted with
  | false =>
      rw [perform_eq_patch] at run
      obtain ⟨_, rfl⟩ := Mem.patch_refused system run
      simpa using held
  | true =>
      have effect := perform_success (by rwa [held.name]) run
      have kept : after.currentHookName = process.currentHookName := by
        rw [perform_eq_patch] at run
        exact Mem.patch_currentHookName run
      subst address length
      refine ⟨kept.trans held.name, by simp, ?_, ?_⟩
      · rw [effect.1, held.image]
        cases here : last with
        | none => rfl
        | some bytes =>
            have same := held.sized bytes here
            simp only [Option.elim, if_true]
            exact overlay_overlay same
      · rw [effect.2, held.patches, held.name]
        cases here : last with
        | none => simp [held.image, here]
        | some bytes =>
            simp only [Option.isSome_some, if_true]
            apply PatchTable.registerPatch_present
            by_cases present : ∃ entry ∈ start.patches.entries, entry.base = call.address
            · obtain ⟨entry, member, same⟩ := present
              exact ⟨entry, PatchTable.mem_registerPatch.mpr (Or.inl member), same⟩
            · refine ⟨_, PatchTable.mem_registerPatch.mpr (Or.inr ⟨rfl, ?_⟩), rfl⟩
              intro other member same
              exact present ⟨other, member, same⟩

end WriteCall

end PatchFix
