import TestBeam.Files.Store

/-!
# Files that keep their texts

A file keeps its texts if all that is stored in it succeeds and it then holds just that. What goes through a
buffer reaches such a file as well: at any time the file and the buffer together hold all pieces so far.
-/

namespace TestBeam.FileStore

variable {σ : Type} [FileStore (StateM σ)]

/-- A file that is made at the path holds exactly the texts that are stored in it. -/
structure Keeps (path : String) (world : σ) (Holds : Handle (StateM σ) → String → σ → Prop) : Prop where
  create : ∀ {handle made},
    (FileStore.create path : StateM σ _).run world = (.ok handle, made) → Holds handle "" made
  append : ∀ {handle content now}, Holds handle content now → ∀ text, ∃ next,
    (FileStore.append handle text).run now = (.ok (), next) ∧ Holds handle (content ++ text) next
  read : ∀ {handle content now}, Holds handle content now →
    ((readText path : StateM σ _).run now).1 = .ok content

def KeepsTexts (path : String) (world : σ) : Prop :=
  ∃ Holds, Keeps path world Holds

section

variable {path : String} {world now next : σ} {Holds : Handle (StateM σ) → String → σ → Prop}
  {handle : Handle (StateM σ)} {content : String}

theorem Keeps.put (hkeeps : Keeps path world Holds) (h : Holds handle content now) (text : String) :
    ∃ next, (FileStore.put handle text).run now = (.ok (), next) ∧
      Holds handle (content ++ text) next := by
  unfold FileStore.put
  split
  · rename_i hempty
    rw [String.isEmpty_iff.mp hempty, String.append_empty]
    exact ⟨now, rfl, h⟩
  · exact hkeeps.append h text

theorem Keeps.hold (hkeeps : Keeps path world Holds) (h : Holds handle content now)
    {held piece : String} (hfits : held.utf8ByteSize + piece.utf8ByteSize ≤ bufferSize ∨ held = "") :
    ∃ stored behind next, (FileStore.hold handle held piece).run now = ((.ok (), behind), next) ∧
      Holds handle stored next ∧ stored ++ behind = content ++ (held ++ piece) := by
  unfold FileStore.hold
  split
  · exact ⟨content, held ++ piece, now, rfl, h, rfl⟩
  · -- A piece of the size of the buffer leaves no room for anything in front of it.
    have hheld : held = "" := by
      refine hfits.elim (fun hle => ?_) id
      have hzero : held.utf8ByteSize = 0 := by omega
      exact String.utf8ByteSize_eq_zero_iff.mp hzero
    obtain ⟨next, hrun, hholds⟩ := hkeeps.append h piece
    refine ⟨content ++ piece, held, next, ?_, hholds, ?_⟩
    · rw [StateT.run_bind, hrun]
      rfl
    · rw [hheld, String.append_empty, String.empty_append]

theorem Keeps.pass (hkeeps : Keeps path world Holds) (h : Holds handle content now)
    (held piece : String) :
    ∃ stored behind next, (FileStore.pass handle held piece).run now = ((.ok (), behind), next) ∧
      Holds handle stored next ∧ stored ++ behind = content ++ (held ++ piece) := by
  unfold FileStore.pass
  split
  · rename_i hfits
    exact hkeeps.hold h (.inl hfits)
  · obtain ⟨emptied, hrun, hholds⟩ := hkeeps.put h held
    rw [StateT.run_bind, hrun]
    have hroom : "".utf8ByteSize + piece.utf8ByteSize ≤ bufferSize ∨ "" = "" := .inr rfl
    obtain ⟨stored, behind, next, hhold, hstored, hjoin⟩ := hkeeps.hold hholds hroom
    refine ⟨stored, behind, next, hhold, hstored, ?_⟩
    rw [hjoin, String.empty_append, String.append_assoc]

theorem Keeps.passAll (hkeeps : Keeps path world Holds) (h : Holds handle content now)
    (held : String) (pieces : List String) :
    ∃ stored behind next,
      (FileStore.passAll handle held pieces).run now = ((.ok (), behind), next) ∧
      Holds handle stored next ∧ stored ++ behind = content ++ (held ++ String.join pieces) := by
  -- The induction is on the pieces still to come, for whatever is stored and held already.
  induction pieces generalizing content held now with
  | nil => exact ⟨content, held, now, rfl, h, by rw [String.join_nil, String.append_empty]⟩
  | cons piece pieces ih =>
    obtain ⟨stored, behind, next, hpass, hstored, hjoin⟩ := hkeeps.pass h held piece
    obtain ⟨all, rest, last, hrest, hall, hjoinAll⟩ := ih hstored behind
    refine ⟨all, rest, last, ?_, hall, ?_⟩
    · rw [FileStore.passAll, StateT.run_bind, hpass]
      exact hrest
    · rw [hjoinAll, ← String.append_assoc, hjoin, String.join_cons]
      simp only [String.append_assoc]

theorem run_writePieces {pieces : List String} {held : String} {made passed closed : σ}
    {passing closing : Except FileError Unit}
    (hcreate : (FileStore.create path : StateM σ _).run world = (.ok handle, made))
    (hpass : (FileStore.passAll handle "" pieces).run made = ((passing, held), passed))
    (hput : (FileStore.put handle held).run passed = (closing, closed)) :
    (FileStore.writePieces path pieces : StateM σ _).run world = (.ok ⟨passing, closing⟩, closed) := by
  unfold FileStore.writePieces
  rw [StateT.run_bind, hcreate]
  change ((FileStore.passAll handle "" pieces >>= _).run made : Id _) = _
  rw [StateT.run_bind, hpass]
  change ((FileStore.put handle held >>= _).run passed : Id _) = _
  rw [StateT.run_bind, hput]
  rfl

theorem Keeps.writePieces (hkeeps : Keeps path world Holds) {pieces : List String}
    {storing : Storing}
    (h : (FileStore.writePieces path pieces : StateM σ _).run world = (.ok storing, next)) :
    storing = ⟨.ok (), .ok ()⟩ ∧
      ((readText path : StateM σ _).run next).1 = .ok (String.join pieces) := by
  rcases hcreate : (FileStore.create path : StateM σ _).run world with ⟨result, made⟩
  cases result with
  | error cause =>
    unfold FileStore.writePieces at h
    rw [StateT.run_bind, hcreate] at h
    cases h
  | ok handle =>
    obtain ⟨stored, behind, passed, hpass, hstored, hjoin⟩ :=
      hkeeps.passAll (hkeeps.create hcreate) "" pieces
    obtain ⟨closed, hput, hheld⟩ := hkeeps.put hstored behind
    rw [run_writePieces hcreate hpass hput] at h
    cases h
    refine ⟨rfl, ?_⟩
    rw [hkeeps.read hheld, hjoin, String.empty_append, String.empty_append]

end

end TestBeam.FileStore
