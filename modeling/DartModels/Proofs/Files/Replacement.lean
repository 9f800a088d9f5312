import DartModels.Proofs.Files.Temporary

/-! # Writes are all or nothing

At every moment of a write the target holds what it held before or the whole new content, and every
other file is as it was. A write that is refused leaves nothing behind but folders on the way.
-/

namespace DartModels.Files

/-- A disk that went on from another one through states with a property. -/
inductive Steps (P : Tree → Prop) (d : Disk) : Disk → Prop

  | refl : Steps P d d

  | step {e : Disk} {s : Tree} : Steps P d e → P s → Steps P d (e.become s)

namespace Steps

variable {P Q : Tree → Prop} {d e f : Disk}

theorem trans (h : Steps P d e) (h' : Steps P e f) : Steps P d f := by
  induction h' with
  | refl => exact h
  | step _ hs ih => exact ih.step hs

theorem imp (h : Steps P d e) (hPQ : ∀ s, P s → Q s) : Steps Q d e := by
  induction h with
  | refl => exact .refl
  | step _ hs ih => exact ih.step (hPQ _ hs)

theorem tree (h : Steps P d e) (hd : P d.tree) : P e.tree := by
  cases h with
  | refl => exact hd
  | step _ hs => exact hs

/-- A state of the later disk has the property or is a state of the earlier one. -/
theorem of_mem (h : Steps P d e) {s : Tree} (hs : s ∈ e.tree :: e.past) :
    P s ∨ s ∈ d.tree :: d.past := by
  induction h with
  | refl => exact .inr hs
  | step _ hP ih =>
    rcases List.mem_cons.1 hs with rfl | hs
    · exact .inl hP
    · exact ih hs

end Steps

/-- A tree that differs from another one at most at one place. -/
def Updates (g : Tree) (p : Place) (e : Option Entry) (s : Tree) : Prop :=
  ∀ q, s.get? q = if q = p then e else g.get? q

theorem updates_put {p : Place} (h : p ≠ []) (g : Tree) (e : Entry) :
    Updates g p (some e) (g.put p e) :=
  fun q => Tree.get?_put h g q e

theorem updates_erase {p : Place} (h : p ≠ []) (g : Tree) : Updates g p none (g.erase p) :=
  Tree.get?_erase h g

theorem Updates.keepsFolders {g s : Tree} {p : Place} {e : Option Entry} (h : Updates g p e s)
    (hp : g.get? p ≠ some .folder) : KeepsFolders g s := by
  intro q hq
  have hne : q ≠ p := by
    rintro rfl
    exact hp hq
  rw [h, if_neg hne, hq]

/-- The places that a path leads through. -/
def OnWay (p : Path) (q : Place) : Prop :=
  ∃ segments, segments <+: p.segments ∧ q = Path.place ⟨p.slashes, segments⟩

/-- Folders may have been added on the way; apart from them nothing is different. -/
def Grown (p : Path) (t s : Tree) : Prop :=
  ∀ q, s.get? q = t.get? q ∨ t.get? q = none ∧ s.get? q = some .folder ∧ OnWay p q

namespace Grown

variable {p : Path} {t s u : Tree}

theorem refl (p : Path) (t : Tree) : Grown p t t :=
  fun _ => .inl rfl

theorem trans (h : Grown p t s) (h' : Grown p s u) : Grown p t u := by
  intro q
  rcases h' q with he | ⟨hn, hf, hw⟩
  · rw [he]
    exact h q
  · rcases h q with he | ⟨-, hf', -⟩
    · exact .inr ⟨he ▸ hn, hf, hw⟩
    · cases hn.symm.trans hf'

theorem of_get?_eq (h : ∀ q, s.get? q = t.get? q) : Grown p t s :=
  fun q => .inl (h q)

theorem of_put {q : Place} (hq : q ≠ []) (hn : t.get? q = none) (hw : OnWay p q) :
    Grown p t (t.put q .folder) := by
  intro r
  rw [updates_put hq t .folder r]
  split
  · next hr =>
    subst hr
    exact .inr ⟨hn, rfl, hw⟩
  · exact .inl rfl

theorem content?_eq (h : Grown p t s) (q : Place) : s.content? q = t.content? q := by
  rw [Tree.content?, Tree.content?]
  rcases h q with he | ⟨hn, hf, -⟩
  · rw [he]
  · rw [hn, hf]

theorem keepsFolders (h : Grown p t s) : KeepsFolders t s := by
  intro q hq
  rcases h q with he | ⟨hn, -, -⟩
  · rw [he, hq]
  · cases hn.symm.trans hq

end Grown

section Folders

variable {t : Tree} {p : Path} {d d' : Disk}

theorem makeFolder_steps {segments : List String} (hp : segments <+: p.segments)
    (hg : Grown p t d.tree) (h : makeFolder d ⟨p.slashes, segments⟩ = .ok d') :
    Steps (Grown p t) d d' := by
  rw [makeFolder] at h
  cases hv : vacancy d.tree ⟨p.slashes, segments⟩ with
  | error fault => simp [hv, Except.map] at h
  | ok place =>
    obtain ⟨hplace, hne, hn⟩ := vacancy_ok hv
    obtain rfl : d.become (d.tree.put place .folder) = d' := by simpa [hv, Except.map] using h
    exact .step .refl (hg.trans (.of_put hne hn ⟨segments, hp, hplace⟩))

/-- Whether or not it succeeds, making folders does nothing but add folders on the way. -/
theorem ensureFolder_steps {segments : List String} {r : Except AccessFault Unit}
    (hp : segments.reverse <+: p.segments) (hg : Grown p t d.tree)
    (h : ensureFolder p.slashes segments d = (r, d')) : Steps (Grown p t) d d' := by
  induction segments generalizing r d d' with
  | nil =>
    obtain rfl : d = d' := congrArg Prod.snd h
    exact .refl
  | cons segment above ih =>
    have hp' : above.reverse <+: p.segments := by
      rw [List.reverse_cons] at hp
      exact (List.prefix_append _ _).trans hp
    rw [ensureFolder] at h
    split at h
    · next e he =>
      obtain rfl : e = d' := congrArg Prod.snd h
      exact makeFolder_steps hp hg he
    · split at h
      · next e habove =>
        obtain rfl : e = d' := congrArg Prod.snd h
        exact ih hp' hg habove
      · next e habove =>
        have hsteps := ih hp' hg habove
        split at h
        · next f hf =>
          obtain rfl : f = d' := congrArg Prod.snd h
          exact hsteps.trans (makeFolder_steps hp (hsteps.tree hg) hf)
        · obtain rfl : e = d' := congrArg Prod.snd h
          exact hsteps
    · obtain rfl : d = d' := congrArg Prod.snd h
      exact .refl

end Folders

section Temporary

variable {g : Tree} {place : Place}

/-- Filling a file changes nothing else, and in the end the file holds all pieces. -/
theorem fill_steps (hne : place ≠ []) (pieces : List ByteArray) (part : ByteArray) {d : Disk}
    (h : Updates g place (some (.file part)) d.tree) :
    Steps (fun s => ∃ part, Updates g place (some (.file part)) s) d (fill place pieces d) ∧
      Updates g place (some (.file (pieces.foldl (· ++ ·) part))) (fill place pieces d).tree := by
  induction pieces generalizing part d with
  | nil => exact ⟨.refl, h⟩
  | cons piece rest ih =>
    have hold : d.tree.content? place = some part := by
      rw [Tree.content?, h place, if_pos rfl]
    have hnext : Updates g place (some (.file (part ++ piece)))
        (d.tree.put place (.file (part ++ piece))) := by
      intro q
      rw [updates_put hne _ _ q, h q]
      split <;> rfl
    obtain ⟨hsteps, hfilled⟩ := ih (part ++ piece) (d := d.become _) hnext
    rw [fill, hold]
    exact ⟨(Steps.refl.step ⟨_, hnext⟩).trans hsteps, hfilled⟩

/-- Without the temporary file the tree is what it was before. -/
theorem get?_erase_of_updates {s : Tree} {e : Option Entry} (hne : place ≠ [])
    (hn : g.get? place = none) (h : Updates g place e s) (q : Place) :
    (s.erase place).get? q = g.get? q := by
  rw [updates_erase hne, h]
  split
  · next hq => rw [hq, hn]
  · rfl

/-- Moving a temporary file onto a path replaces the entry there, and it can be read there. -/
theorem moveTo_ok {target : Path} {content : ByteArray} {d d' : Disk} (hne : place ≠ [])
    (hplace : place ≠ target.place) (hn : g.get? place = none)
    (h : Updates g place (some (.file content)) d.tree) (hm : moveTo d place target = .ok d') :
    ∃ s, d' = d.become s ∧ Updates g target.place (some (.file content)) s ∧
      g.get? target.place ≠ some .folder ∧ readFile s target = some content := by
  rw [moveTo] at hm
  cases hr : replaceable d.tree target with
  | error fault => simp [hr, Except.map] at hm
  | ok q =>
    obtain ⟨rfl, hq, hfolder⟩ := replaceable_ok hr
    have hcontent : d.tree.content? place = some content := by
      rw [Tree.content?, h place, if_pos rfl]
    rw [hr, hcontent] at hm
    have hother : d.tree.get? target.place = g.get? target.place := by
      rw [h, if_neg hplace.symm]
    have hs : Updates g target.place (some (.file content))
        ((d.tree.put target.place (.file content)).erase place) := by
      intro r
      rw [updates_erase hne, updates_put hq, h]
      by_cases hr : r = place
      · rw [if_pos hr, if_neg (hr ▸ hplace), hr, hn]
      · rw [if_neg hr, if_neg hr]
    have hkeeps : KeepsFolders d.tree
        ((d.tree.put target.place (.file content)).erase place) := by
      intro r hr
      have hrp : r ≠ place := by
        rintro rfl
        rw [h r, if_pos rfl] at hr
        cases hr
      have hrt : r ≠ target.place := by
        rintro rfl
        exact hfolder hr
      rw [hs, if_neg hrt, ← hr, h, if_neg hrp]
    refine ⟨_, (Except.ok.inj hm).symm, hs, hother ▸ hfolder, ?_⟩
    rw [Option.getD_some, readFile_of_replaceable hkeeps hr, Tree.content?, hs, if_pos rfl]

/-- A transfer that is not cut short brings all of the content. -/
def Transfer.Brings (transfer : Transfer) (content : ByteArray) : Prop :=
  transfer.refused? = none → transfer.pieces.foldl (· ++ ·) .empty = content

theorem Transfer.whole_brings (content : ByteArray) : (whole content).Brings content :=
  fun _ => ByteArray.empty_append

theorem finish_ok {transfer : Transfer} {target : Path} {d d' : Disk}
    (h : finish transfer d place target = .ok d') :
    transfer.refused? = none ∧ moveTo d place target = .ok d' := by
  unfold finish at h
  split at h
  · cases h
  · next hn => exact ⟨hn, h⟩

/-- A new file that holds what is transferred. -/
def filled (transfer : Transfer) (d : Disk) (place : Place) : Disk :=
  fill place transfer.pieces (d.become (d.tree.put place (.file .empty)))

/-- What a finished replacement has done to the tree in which its file was reserved. -/
theorem finish_filled_ok {transfer : Transfer} {target : Path} {content : ByteArray} {d d' : Disk}
    (hb : transfer.Brings content) (hr : reserve d.tree target = .ok place)
    (hf : finish transfer (filled transfer d place) place target = .ok d') :
    ∃ s, d' = (filled transfer d place).become s ∧
      Updates d.tree target.place (some (.file content)) s ∧
      d.tree.get? target.place ≠ some .folder ∧ readFile s target = some content := by
  obtain ⟨hne, hn, hbeside⟩ := reserve_ok hr
  obtain ⟨-, hfilled⟩ := fill_steps hne transfer.pieces .empty
    (d := d.become (d.tree.put place (.file .empty))) (updates_put hne d.tree _)
  obtain ⟨hwhole, hmove⟩ := finish_ok hf
  rw [hb hwhole] at hfilled
  exact moveTo_ok hne hbeside hn hfilled hmove

end Temporary

/-- The target has new content; apart from it only folders on the way are different. -/
def Replaced (target : Path) (content : ByteArray) (t s : Tree) : Prop :=
  ∃ g, Grown target.parent t g ∧ g.get? target.place ≠ some .folder ∧
    Updates g target.place (some (.file content)) s

/-- How far a write has come: folders are made, a temporary file beside the target is filled, or the
target is replaced. -/
inductive Stage (target : Path) (content : ByteArray) (t s : Tree) : Prop

  | grown : Grown target.parent t s → Stage target content t s

  | filling {g : Tree} {place : Place} {part : ByteArray} : Grown target.parent t g →
      g.get? place = none → place ≠ target.place → Updates g place (some (.file part)) s →
      Stage target content t s

  | replaced : Replaced target content t s → Stage target content t s

/-- What has become of a disk when a write ends: the target is replaced and can be read along its
path, or nothing but folders is added, or a rejected code left the disk untouched. -/
def Conclusion (target : Path) (content : ByteArray) (d d' : Disk) :
    Except WriteFault Unit → Prop
  | .ok _ => Replaced target content d.tree d'.tree ∧ readFile d'.tree target = some content
  | .error (.access _) => Grown target.parent d.tree d'.tree
  | .error (.code _) => d' = d

/-- A write that was let through goes on in stages up to its conclusion. -/
theorem replaceFile_steps {target : Path} {content : ByteArray} {transfer : Transfer}
    {d d' : Disk} {r : Except AccessFault Unit} (hb : transfer.Brings content)
    (h : replaceFile target transfer d = (r, d')) :
    Steps (Stage target content d.tree) d d' ∧
      Conclusion target content d d' (r.mapError .access) := by
  have hway : target.parent.segments.reverse.reverse <+: target.parent.segments := by
    rw [List.reverse_reverse]
  have hslashes : target.slashes = target.parent.slashes := rfl
  rw [replaceFile, hslashes] at h
  split at h
  · next fault e he =>
    have hsteps := ensureFolder_steps hway (.refl _ _) he
    obtain ⟨rfl, rfl⟩ := Prod.mk.inj h
    exact ⟨hsteps.imp fun _ => .grown, hsteps.tree (.refl _ _)⟩
  · next e he =>
    have hsteps := ensureFolder_steps hway (.refl _ _) he
    have hgrown := hsteps.tree (.refl _ _)
    replace hsteps := hsteps.imp (Q := Stage target content d.tree) fun _ => .grown
    split at h
    · obtain ⟨rfl, rfl⟩ := Prod.mk.inj h
      exact ⟨hsteps, hgrown⟩
    · next place hv =>
      obtain ⟨hne, hn, hbeside⟩ := reserve_ok hv
      obtain ⟨hfill, hfilled⟩ := fill_steps hne transfer.pieces .empty
        (d := e.become (e.tree.put place (.file .empty))) (updates_put hne e.tree _)
      have hfillsteps := hsteps.trans ((Steps.refl.step (.filling hgrown hn hbeside
        (updates_put hne e.tree _))).trans (hfill.imp fun _ ⟨_, hs⟩ =>
          .filling hgrown hn hbeside hs))
      dsimp only at h
      split at h
      · next f hf =>
        obtain ⟨s, rfl, hs, hfolder, hread⟩ := finish_filled_ok hb hv hf
        obtain ⟨rfl, rfl⟩ := Prod.mk.inj h
        have hreplaced : Replaced target content d.tree s := ⟨_, hgrown, hfolder, hs⟩
        exact ⟨hfillsteps.step (.replaced hreplaced), hreplaced, hread⟩
      · obtain ⟨rfl, rfl⟩ := Prod.mk.inj h
        have hremoved :
            Grown target.parent d.tree (remove (fill place transfer.pieces _) place).tree :=
          hgrown.trans (.of_get?_eq (get?_erase_of_updates hne hn hfilled))
        exact ⟨hfillsteps.step (.grown hremoved), hremoved⟩

namespace Replaced

variable {target : Path} {content : ByteArray} {t s : Tree}

theorem content?_eq (h : Replaced target content t s) (q : Place) :
    s.content? q = if q = target.place then some content else t.content? q := by
  obtain ⟨g, hg, -, hs⟩ := h
  by_cases hq : q = target.place
  · rw [Tree.content?, hs, if_pos hq, if_pos hq]
  · rw [if_neg hq, ← hg.content?_eq q, Tree.content?, hs, if_neg hq, Tree.content?]

theorem keepsFolders (h : Replaced target content t s) : KeepsFolders t s := by
  obtain ⟨g, hg, hfolder, hs⟩ := h
  exact fun q hq => hs.keepsFolders hfolder q (hg.keepsFolders q hq)

end Replaced

namespace Stage

variable {target : Path} {content : ByteArray} {t s : Tree}

theorem keepsFolders (h : Stage target content t s) : KeepsFolders t s := by
  cases h with
  | grown hg => exact hg.keepsFolders
  | @filling g place part hg hn _ hs =>
    exact fun q hq => hs.keepsFolders (hn ▸ nofun) q (hg.keepsFolders q hq)
  | replaced hr => exact hr.keepsFolders

/-- At every stage the target has its old content or all of the new one. -/
theorem content?_target (h : Stage target content t s) :
    s.content? target.place = t.content? target.place ∨
      s.content? target.place = some content := by
  cases h with
  | grown hg => exact .inl (hg.content?_eq _)
  | @filling g place part hg _ hbeside hs =>
    left
    rw [← hg.content?_eq, Tree.content?, hs, if_neg hbeside.symm, Tree.content?]
  | replaced hr =>
    right
    rw [hr.content?_eq, if_pos rfl]

/-- At every stage all other files are as they were. -/
theorem content?_other (h : Stage target content t s) {q : Place} (hq : q ≠ target.place)
    {old : ByteArray} (hold : t.content? q = some old) : s.content? q = some old := by
  cases h with
  | grown hg => rw [hg.content?_eq, hold]
  | @filling g place part hg hn _ hs =>
    have hgq : g.content? q = some old := by rw [hg.content?_eq, hold]
    have hne : q ≠ place := by
      rintro rfl
      rw [Tree.content?, hn] at hgq
      cases hgq
    rw [← hgq, Tree.content?, hs, if_neg hne, Tree.content?]
  | replaced hr => rw [hr.content?_eq, if_neg hq, hold]

end Stage

theorem writeBy_steps {transfer : Transfer} {target : Path} {content : String} {check : Bool}
    {d d' : Disk} {r : Except WriteFault Unit} (hb : transfer.Brings content.toUTF8)
    (h : writeBy transfer target content check d = (r, d')) :
    Steps (Stage target content.toUTF8 d.tree) d d' ∧ Conclusion target content.toUTF8 d d' r := by
  unfold writeBy at h
  split at h
  · obtain ⟨rfl, rfl⟩ := Prod.mk.inj h
    exact ⟨.refl, rfl⟩
  · cases hr : replaceFile target transfer d with
    | mk result e =>
      have hsteps := replaceFile_steps hb hr
      rw [hr] at h
      obtain ⟨rfl, rfl⟩ := Prod.mk.inj h
      exact hsteps

theorem write_steps {target : Path} {content : String} {check : Bool} {d d' : Disk}
    {r : Except WriteFault Unit} (h : write target content check d = (r, d')) :
    Steps (Stage target content.toUTF8 d.tree) d d' ∧ Conclusion target content.toUTF8 d d' r :=
  writeBy_steps (Transfer.whole_brings _) h

/-- A write is all or nothing, in however many pieces the content goes through and whether or not
it is cut short. In each of its states the target holds what it held before or all of the new
content, both at its place and as it is read along the path, no other file is different and no
folder is gone. In the end the new content is there and nothing else has changed but for folders;
or the write was refused and only folders on the way have been added; or the code was rejected and
the disk was not touched. -/
theorem writeBy_all_or_nothing (transfer : Transfer) (target : Path) (content : String)
    (hbrings : transfer.Brings content.toUTF8) (check : Bool) (t : Tree) :
    let r := writeBy transfer target content check (.ofTree t)
    (∀ s ∈ r.2.tree :: r.2.past,
      (s.content? target.place = t.content? target.place ∨
        s.content? target.place = some content.toUTF8) ∧
      (∀ q ≠ target.place, ∀ old, t.content? q = some old → s.content? q = some old) ∧
      KeepsFolders t s ∧
      (∀ old, readFile t target = some old →
        readFile s target = some old ∨ readFile s target = some content.toUTF8) ∧
      ∀ found, readFile s target = some found → s.content? target.place = some found) ∧
    match r.1 with
    | .ok _ => readFile r.2.tree target = some content.toUTF8 ∧ ∀ q,
        r.2.tree.content? q = if q = target.place then some content.toUTF8 else t.content? q
    | .error (.access _) => ∀ q, r.2.tree.content? q = t.content? q ∧
        (r.2.tree.get? q = t.get? q ∨
          t.get? q = none ∧ r.2.tree.get? q = some .folder ∧ OnWay target.parent q)
    | .error (.code _) => r.2 = .ofTree t := by
  intro r
  cases hr : r with
  | mk result d =>
    obtain ⟨hsteps, hend⟩ := writeBy_steps hbrings hr
    constructor
    · intro s hs
      have hstage : Stage target content.toUTF8 t s := by
        rcases hsteps.of_mem hs with hstage | ht
        · exact hstage
        · rw [List.mem_singleton.1 ht]
          exact .grown (.refl _ _)
      refine ⟨hstage.content?_target, fun q hq old => hstage.content?_other hq,
        hstage.keepsFolders, ?_, fun found => content?_of_readFile⟩
      intro old hold
      rw [readFile_of_keepsFolders hstage.keepsFolders hold, ← content?_of_readFile hold]
      exact hstage.content?_target
    · rcases result with (_ | _) | _
      · exact hend
      · intro q
        exact ⟨hend.content?_eq q, hend q⟩
      · exact ⟨hend.2, hend.1.content?_eq⟩

theorem writeBy_all_or_nothing_halves :
    let r := writeBy ⟨["class ".toUTF8, "A {}".toUTF8], none⟩ ⟨1, ["a.dart"]⟩ "class A {}" true
      (.ofTree ⟨[(["a.dart"], .file "old".toUTF8)]⟩)
    r.1 = .ok () ∧ r.2.past.length = 4 ∧ ∀ s ∈ r.2.tree :: r.2.past,
      s.content? ["a.dart"] = some "old".toUTF8 ∨
        s.content? ["a.dart"] = some "class A {}".toUTF8 := by
  have h := writeBy_all_or_nothing ⟨["class ".toUTF8, "A {}".toUTF8], none⟩ ⟨1, ["a.dart"]⟩
    "class A {}" (fun _ => by decide +kernel) true ⟨[(["a.dart"], .file "old".toUTF8)]⟩
  exact ⟨by decide +kernel, by decide +kernel, fun s hs => (h.1 s hs).1⟩

end DartModels.Files
