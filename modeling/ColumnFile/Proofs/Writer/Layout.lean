import ColumnFile.Proofs.Layout.Dump
import ColumnFile.Proofs.Writer.Crew

/-! # Files that were closed are described

Any number of writers share the files of one store, and everything that they are asked for goes
well. When one of them closes its file, the map of the file that its footers give names every octet
once: the stripes tile what lies before the end of the file, whoever wrote them, and the streams
tile each stripe.

* **`Writer.Smooth`** — one thing that happens, and goes well.
* **`Writer.session_of_smooth`**, **`Writer.turns_of_smooth`** — what goes well is a session in
  which nothing failed, and turns of a crew.
* **`Writer.Directory.tile`** — the stripes of a directory in order tile what lies before the end of
  the file.
* **`Writer.close_described`** — the file of a writer that was closed is described.
* **`Writer.layout_tiles`** — the ranges of a file that was closed tile it, and its dump points out
  no error. -/

namespace ColumnFile.Writer

open Writing

variable [Library]

/-! ## (1) Turns that go well -/

/-- **A turn that goes well**: nothing that is asked for fails. When a writer is merged into
another, no one else's file has the name of its file of values. -/
inductive Smooth : Crew → Crew → Prop
  /-- A writer is made. -/
  | create {crew : Crew} {options : WriterOptions} {w : Writer} {store : Store} (i : Nat)
      (step : Writer.create options crew.archive.store = (.ok w, store)) :
      Smooth crew { archive := { crew.archive with store },
                    member := Function.update crew.member i (some w) }
  /-- A writer gets another sink for the log, and other statistics for its summary. -/
  | equip {crew : Crew} {i : Nat} {w : Writer} (sink : Option LogSink) (summary : Option Collector)
      (member : crew.member i = some w) :
      Smooth crew
        { crew with
          member := Function.update crew.member i
            (some { w with sink, summaryStatistics := summary }) }
  /-- A writer takes a row, or is flushed. -/
  | call {crew : Crew} {i : Nat} {w : Writer} {call : Call} {ws : Workspace}
      (member : crew.member i = some w)
      (step : runAt call.step { writer := w, archive := crew.archive } = (.ok (), ws)) :
      Smooth crew { archive := ws.archive,
                    member := Function.update crew.member i (some ws.writer) }
  /-- A writer is merged into another, and is gone then. -/
  | merge {crew : Crew} {i j : Nat} {a b : Writer} {ws : Workspace} (first : crew.member i = some a)
      (second : crew.member j = some b)
      (spared : ∀ k c, crew.member k = some c → k ≠ j →
        Path.same b.options.toastFileName c.options.fileName = false)
      (step : runAt (Writer.merge b) { writer := a, archive := crew.archive } = (.ok (), ws)) :
      Smooth crew
        { archive := ws.archive
          member := Function.update (Function.update crew.member j none) i (some ws.writer) }
  /-- A writer closes its file, and is gone then. -/
  | close {crew : Crew} {i : Nat} {w : Writer} {ws : Workspace} (member : crew.member i = some w)
      (step : runAt Writer.close { writer := w, archive := crew.archive } = (.ok (), ws)) :
      Smooth crew { archive := ws.archive, member := Function.update crew.member i none }
  /-- A writer is given up. -/
  | drop {crew : Crew} (i : Nat) :
      Smooth crew { crew with member := Function.update crew.member i none }

/-- The writers of a roster. -/
def Roster.members (roster : Roster) : Nat → Option Writer := fun i => (roster i).map Prod.fst

variable {crew crew' : Crew} {archive : Archive} {i j : Nat} {w : Writer} {ws : Workspace}

omit [Library] in
/-- A writer of a roster has a ledger there. -/
theorem Roster.of_members {roster : Roster} (h : roster.members i = some w) :
    ∃ l, roster i = some (w, l) := by
  obtain ⟨⟨w', l⟩, hmember, rfl⟩ := Option.map_eq_some_iff.mp h
  exact ⟨l, hmember⟩

omit [Library] in
/-- Someone who joins a roster joins its writers. -/
theorem Roster.members_update (roster : Roster) (i : Nat) (member : Option (Writer × Ledger)) :
    Roster.members (Function.update roster i member) =
      Function.update roster.members i (member.map Prod.fst) := by
  funext j
  by_cases hj : j = i
  · subst hj
    rw [Function.update_self, members, Function.update_self]
  · rw [Function.update_of_ne hj, members, Function.update_of_ne hj, members]

/-- **What goes well is a session** in which nothing failed, and everyone's paths lead to their
files. -/
theorem session_of_smooth (hlibrary : BlockLibrary.Restores) (hown : archive.store.foreign = false)
    (h : Relation.ReflTransGen Smooth (.start archive) crew) :
    ∃ roster : Roster, Session (.strict fun _ => True) crew.archive roster ∧
    roster.members = crew.member ∧
      roster.Led (.strict fun _ => True) crew.archive := by
  induction h with
  | refl => exact ⟨fun _ => none, .start hown, rfl, fun _ _ _ hmember => nomatch hmember⟩
  | @tail crew crew' _ hturn ih =>
      obtain ⟨roster, hsession, hmembers, hled⟩ := ih
      have hheld := hsession.held hlibrary
      cases hturn with
      | create i hcreate =>
          refine ⟨_, hsession.create i trivial hcreate, ?_, hled.made hheld i trivial hcreate⟩
          rw [roster.members_update, hmembers]
          rfl
      | @equip i w sink summary hmember =>
          rw [← hmembers] at hmember
          obtain ⟨l, hlisted⟩ := Roster.of_members hmember
          refine ⟨_, hsession.equip sink summary hlisted rfl, ?_,
            hled.advance hlisted (Advances.equip w _ sink summary)⟩
          rw [roster.members_update, hmembers]
          rfl
      | @call i w call ws hmember hcall =>
          rw [← hmembers] at hmember
          obtain ⟨l, hlisted⟩ := Roster.of_members hmember
          have hoccurs := Call.occurs hcall
          refine ⟨_, hsession.event hlisted (.inl rfl) hoccurs, ?_,
            hled.advance hlisted (hoccurs.follows hlibrary (hheld.follows i w l hlisted)).1⟩
          rw [roster.members_update, hmembers]
          rfl
      | @merge i j a b ws hfirst hsecond hspared hmerge =>
          rw [← hmembers] at hfirst hsecond
          obtain ⟨l, ha⟩ := Roster.of_members hfirst
          obtain ⟨l', hb⟩ := Roster.of_members hsecond
          refine ⟨_, hsession.merge ha hb hmerge, ?_, hled.merged hlibrary hheld ha hb hmerge ?_⟩
          · rw [Roster.members_update, roster.members_update, hmembers]
            rfl
          · intro k c l'' hc hk
            refine hspared k c ?_ hk
            rw [← hmembers, Roster.members, hc]
            rfl
      | close hmember hclose =>
          rw [← hmembers] at hmember
          obtain ⟨l, hlisted⟩ := Roster.of_members hmember
          refine ⟨_, hsession.close hlisted hclose, ?_, hled.closed hlibrary hheld hlisted hclose⟩
          rw [roster.members_update, hmembers]
          rfl
      | drop i =>
          refine ⟨_, hsession.drop i, ?_, hled.drop i⟩
          rw [roster.members_update, hmembers]
          rfl

/-- **A turn that goes well** is one of a crew, or two. -/
theorem Smooth.turns (h : Smooth crew crew') : Relation.ReflTransGen Turn crew crew' := by
  cases h with
  | create i step => exact .single (.create i step)
  | equip sink summary member => exact .single (.equip sink summary member)
  | @call i w call ws member step =>
      cases call with
      | write row => exact .single (.task (.write row) member step)
      | flush => exact .single (.task .flush member step)
  | merge first second _ step =>
      refine .single (.merge first second ?_ step)
      rintro rfl
      cases first.symm.trans second
      exact not_merge_self step
  | @close i w ws member step =>
      have hdropped := @Turn.drop _ ⟨ws.archive, Function.update crew.member i (some ws.writer)⟩ i
      dsimp only at hdropped
      rw [Function.update_idem] at hdropped
      exact (Relation.ReflTransGen.single (.task .close member step)).tail hdropped
  | drop i => exact .single (.drop i)

/-- Turns that go well are turns. -/
theorem turns_of_smooth (h : Relation.ReflTransGen Smooth crew crew') :
    Relation.ReflTransGen Turn crew crew' := by
  induction h with
  | refl => exact .refl
  | tail _ hturn ih => exact ih.trans hturn.turns

/-- **Calls that succeed** go well. -/
theorem smooth_of_perform {calls : List Call} (hmember : crew.member i = some w)
    (h : runAt (perform calls) { writer := w, archive := crew.archive } = (.ok (), ws)) :
    Relation.ReflTransGen Smooth crew
      { archive := ws.archive, member := Function.update crew.member i (some ws.writer) } := by
  induction calls generalizing crew w with
  | nil =>
      obtain ⟨-, rfl⟩ := pure_ok h
      rw [Function.update_eq_self_iff.mpr hmember.symm]
  | cons call calls ih =>
      obtain ⟨⟨⟩, w₁, hfirst, hrest⟩ := bind_ok h
      have hsmooth := @ih (.mk w₁.archive (Function.update crew.member i (some w₁.writer))) _
        (Function.update_self i _ _) hrest
      rw [Function.update_idem] at hsmooth
      exact .head (.call hmember hfirst) hsmooth

/-! ## (2) Stripes -/

omit [Library] in
/-- **Stripes that lie one behind the other** tile what they take. -/
theorem tile_of_starts {infos : List StripeInformation} {start : Nat}
    (h : ∀ k info, infos[k]? = some info →
      info.offset = start + ((infos.take k).map StripeInformation.length).sum) :
    ByteRange.Tile start (start + (infos.map StripeInformation.length).sum)
      (infos.map StripeInformation.range) := by
  induction infos generalizing start with
  | nil => rfl
  | cons info rest ih =>
      have hfirst : info.offset = start := h 0 info rfl
      refine ⟨hfirst, Nat.le_add_right _ _, ?_⟩
      show ByteRange.Tile (info.offset + info.length) _ _
      rw [hfirst, List.map_cons, List.sum_cons, ← Nat.add_assoc]
      refine ih fun k info' hinfo => ?_
      rw [h (k + 1) info' hinfo, List.take_succ_cons, List.map_cons, List.sum_cons, Nat.add_assoc]

omit [Library] in
/-- **The stripes of a directory in order** tile what lies before the place of the next one. -/
theorem Directory.tile (h : w.Directory) :
    ByteRange.Tile 0 w.offset (w.stripes.map StripeInformation.range) := by
  have htile : ByteRange.Tile 0 (0 + (w.stripes.map StripeInformation.length).sum)
      (w.stripes.map StripeInformation.range) :=
    tile_of_starts fun k info hinfo => by rw [Nat.zero_add]; exact h.starts k info hinfo
  rw [Nat.zero_add, ← h.offset] at htile
  exact htile

/-- **A stripe that holds rows** is laid out in every file that has its octets where its entry
says. -/
theorem laidOut_of_describes {info : StripeInformation} {schema : List ColumnSpec}
    {format : StorageFormat} {stripe values : Bytes} {rows : List Row} {store : Store}
    {file : FileId} (h : info.Describes schema format stripe values rows)
    (hstore : store.foreign = false) (hcolumns : schema.length < 2 ^ 30)
    (hcount : info.rows < 2 ^ 60) (hdata : info.dataLength < 2 ^ 64)
    (hstripe : (store.get file).slice? info.offset stripe.length = some stripe) :
    info.LaidOut store file := by
  rw [h.count] at hcount
  obtain ⟨footer, hdecode, hextent⟩ := h.laid hcolumns hcount hdata
  refine ⟨_, footer, ?_, hdecode, hextent⟩
  rw [Store.read_eq_ok hstore]
  refine Bytes.slice?_slice? hstripe ?_
  have hlength : info.dataLength + info.footerLength = stripe.length := h.length.symm
  rw [Bytes.slice?, if_pos (Nat.le_of_eq hlength), List.take_of_length_le]
  rw [List.length_drop]
  omega

/-! ## (3) Files -/

/-- **The file of a writer that was closed** is described, if its directory is in order and none of
its calls failed: the ranges that are named tile it. -/
theorem close_described (hlibrary : BlockLibrary.Restores) {ws ws' : Workspace} {l : Ledger}
    (hfollows : ws.writer.Follows ws.archive.store l) (hclean : l.Clean)
    (hleads : ws.writer.Leads ws.archive.store) (hsound : ws.writer.Sound ws.archive.store)
    (hclose : runAt close ws = (.ok (), ws')) (hfits : ws'.writer.Fits) :
    ∃ a file, ws'.archive.store.open? ws.writer.options.fileName = .ok file ∧
      Annotations.ofFile ws'.archive.store ws.writer.options.fileName = .ok a ∧
      ({} : Annotations).Continues a 0 (ws'.archive.store.length file) := by
  have hrows := close_rows_lt hlibrary hfollows hclean.backed hclose hfits
  obtain ⟨file, content, hforeign, hopen, hcontent, hlength, hread, hplaced⟩ :=
    close_ends hlibrary hfollows hleads hclose hfits hrows
  -- a reader finds the footer of the writer
  obtain ⟨footer, hfiled, hschema⟩ := close_filed hlibrary hfollows hleads hclose hfits hrows
  obtain ⟨file', hopen', hread', -⟩ := hfiled.stripes
  cases hopen.symm.trans hopen'
  cases hread.symm.trans hread'
  have hcounts : l.flushed.counted.length = l.flushed.written.length := by
    rw [l.counted_flushed, l.written_flushed, hclean.counted]
  obtain ⟨reader, hreader, hfooter, -⟩ := @Filed.opens _ _ _ _ _ {} hfiled hcounts rfl
  -- its stripes are in order behind the close, and each is laid out
  have htile := (close_safe hclose hsound).sound.toDirectory.tile
  have hcolumns : ws.writer.options.schema.length < 2 ^ 30 := by
    rw [← hschema]
    exact hfits.columns
  have hlaid : ∀ info ∈ ws'.writer.stripes, info.LaidOut ws'.archive.store file := by
    intro info hinfo
    obtain ⟨k, hk⟩ := List.mem_iff_getElem?.mp hinfo
    obtain ⟨b, -, hentry, hcount, stripe, values, hd, -, hstripe, -⟩ := partner hplaced hk
    refine laidOut_of_describes hd hforeign hcolumns hcount hentry.dataLength ?_
    rw [hcontent]
    exact Bytes.slice?_append_left hstripe _
  have hend : ws'.archive.store.length file < 2 ^ 64 := by
    rw [Store.length, hcontent, List.length_append, hlength]
    exact hfits.length
  rw [← hfooter] at hcontent
  rw [← hlength] at htile
  obtain ⟨a, hdescribed, hcontinues⟩ := Annotations.ofFile_continues hforeign hreader hopen hcontent
    (by rw [hfooter]; exact hlength.symm) hend (by rw [hfooter]; exact htile)
      (by rw [hfooter]; exact hlaid)
  exact ⟨a, file, hopen, hdescribed, hcontinues⟩

/-- **A file that was closed is described.** Any number of writers share the files of one store of
one's own; they are made, take rows, are flushed, merged into each other and closed, in any order,
and all of it succeeds. No one else's file has the name of the file of values of a writer that is
merged. When one of them closes its file, and its numbers fit into the messages, the file can be
described; the ranges that are not empty tile the file in their order, and no line of the dump of
the file by its ranges points out an error. -/
theorem layout_tiles (hlibrary : BlockLibrary.Restores) (hown : archive.store.foreign = false)
    (hreached : Relation.ReflTransGen Smooth (.start archive) crew)
    (hmember : crew.member i = some w)
    (hclose : runAt close { writer := w, archive := crew.archive } = (.ok (), ws))
    (hfits : ws.writer.Fits) :
    ∃ a file, ws.archive.store.open? w.options.fileName = .ok file ∧
      Annotations.ofFile ws.archive.store w.options.fileName = .ok a ∧
      ByteRange.Tile 0 (ws.archive.store.length file)
        ((a.ranges.map Prod.fst).filter fun r => 0 < r.length) ∧
      ∀ line ∈ (a.hexdump (ws.archive.store.get file)).toList.splitOn '\n',
      ¬ Hexdump.IsError line := by
  obtain ⟨roster, hsession, hmembers, hled⟩ := session_of_smooth hlibrary hown hreached
  have hlisted := hmember
  rw [← hmembers] at hlisted
  obtain ⟨l, hlisted⟩ := Roster.of_members hlisted
  have hsound := (keeps_of_turns (turns_of_smooth hreached) (steady_start hown)).steady.sound
    i w hmember
  obtain ⟨a, file, hopen, hdescribed, hcontinues⟩ := close_described hlibrary
    ((hsession.held hlibrary).follows i w l hlisted) (hsession.clean hlisted)
      (hled i w l hlisted).2 hsound hclose
    hfits
  refine ⟨a, file, hopen, hdescribed, ?_, hcontinues.hexdump (Nat.le_refl _)⟩
  obtain ⟨more, hranges, htile, -⟩ := hcontinues.ranges
  rw [hranges]
  exact htile.nonempty

omit [Library] in
/-- Two writers have a stripe each, with a value out of line, and a row that they keep; one is
merged into the other, whose file has four stripes when it is closed. -/
theorem layout_tiles_two_writers :
    ∃ crew w ws a file, Relation.ReflTransGen (@Smooth .verbatim) (.start {}) crew ∧
      crew.member 0 = some w ∧
      runAt (@close .verbatim) { writer := w, archive := crew.archive } = (.ok (), ws) ∧
      ws.writer.stripes.length = 4 ∧ ws.archive.store.open? "f" = .ok file ∧
      Annotations.ofFile ws.archive.store "f" = .ok a ∧
      ByteRange.Tile 0 (ws.archive.store.length file)
        ((a.ranges.map Prod.fst).filter fun r => 0 < r.length) ∧
      ∀ line ∈ (a.hexdump (ws.archive.store.get file)).toList.splitOn '\n',
      ¬ Hexdump.IsError line := by
  -- the run, and what is asked of it
  have hrun : ∃ a b store store' wa wb wm wc, create (twoColumns "f") {} = (.ok a, store) ∧
      create (twoColumns "g") store = (.ok b, store') ∧
      wa = runAt (@perform .verbatim twoRows) { writer := a, archive := { store := store' } } ∧
        wa.1 = .ok () ∧
      wb = runAt (@perform .verbatim twoRows) { writer := b, archive := wa.2.archive } ∧
        wb.1 = .ok () ∧
      wm = runAt (@merge .verbatim wb.2.writer) { writer := wa.2.writer, archive := wb.2.archive } ∧
      wm.1 = .ok () ∧
      wc = runAt (@close .verbatim) wm.2 ∧ wc.1 = .ok () ∧
      Path.same wb.2.writer.options.toastFileName wa.2.writer.options.fileName = false ∧
      wm.2.writer.options.fileName = "f" ∧ wc.2.writer.stripes.length = 4 ∧
      @Fits .verbatim wc.2.writer := by
    refine ⟨_, _, _, _, _, _, _, _, rfl, rfl, rfl, by decide +kernel, rfl, by decide +kernel, rfl,
      by decide +kernel, rfl, by decide +kernel, by decide +kernel, by decide +kernel,
      by decide +kernel, by decide +kernel⟩
  obtain ⟨a, b, store, store', wa, wb, wm, wc, ha, hb, hwa, hwa', hwb, hwb', hwm, hwm', hwc,
    hwc', hspared, hname, hlisted, hfits⟩ := hrun
  have hboth : Relation.ReflTransGen (@Smooth .verbatim) (.start {}) _ :=
    (Relation.ReflTransGen.single (@Smooth.create .verbatim (.start {}) _ _ _ 0 ha)).tail
      (@Smooth.create .verbatim _ _ _ _ 1 hb)
  have hfirst := hboth.trans (@smooth_of_perform .verbatim _ 0 a wa.2 _ rfl (runAt_eq hwa hwa'))
  have hsecond := hfirst.trans (@smooth_of_perform .verbatim _ 1 b wb.2 _ rfl (runAt_eq hwb hwb'))
  have hmerged := hsecond.tail (@Smooth.merge .verbatim _ 0 1 _ _ _ rfl rfl ?_ (runAt_eq hwm hwm'))
  · obtain ⟨annotations, file, hopen, hdescribed, htile, hlines⟩ :=
      @layout_tiles .verbatim _ {} 0 _ wc.2
      BlockLibrary.verbatim_restores rfl hmerged rfl (runAt_eq hwc hwc') hfits
    rw [hname] at hopen hdescribed
    exact ⟨_, _, _, annotations, file, hmerged, rfl, runAt_eq hwc hwc', hlisted, hopen, hdescribed,
      htile, hlines⟩
  · -- the only other writer is the first
    intro k c hc hk
    rcases listed_of_join hc with ⟨rfl, -⟩ | ⟨-, hc⟩
    · exact absurd rfl hk
    · rcases listed_of_join hc with ⟨-, rfl⟩ | ⟨hfirst, hc⟩
      · exact hspared
      · rcases listed_of_join hc with ⟨rfl, -⟩ | ⟨-, hc⟩
        · exact absurd rfl hk
        · rcases listed_of_join hc with ⟨rfl, -⟩ | ⟨-, hc⟩
          · exact absurd rfl hfirst
          · cases hc

end ColumnFile.Writer
