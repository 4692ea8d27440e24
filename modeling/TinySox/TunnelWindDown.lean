import TinySox.HelperSession
import TinySox.ShutdownSequence

/-!
# A tunnel that is told to stop

The main loop of a tunnel whose flag is set, when the service has cancelled at least one of its two
helpers. The loop looks at the flag between two rounds only, and a write is repeated within a round.
A cancelled reader ends the repetition when its status is checked, a cancelled writer when the next
`Transfer` looks at its counter. So the round in which the tunnel is told to stop is its last.
-/

namespace TinySox

open TinySox.Common

namespace TunnelPc

/-- Where there is something to write, it is at least one byte. -/
def Loaded : TunnelPc → Prop
  | .write dr | .writing dr _ | .readerStatus dr _ => 1 ≤ dr
  | _ => True

/-- Outside of the rounds of the main loop. -/
def isSettled : TunnelPc → Bool
  | .loop | .shutdownReader | .shutdownWriter | .done => true
  | _ => false

end TunnelPc

/-- What a tunnel that is told to stop may still do, and how many calls it may have started. -/
structure JobMark.Within (m : JobMark) (left reads writes : ℕ) : Prop where
  statements : m.statements + left ≤ 6
  reads : m.reads ≤ reads
  writes : m.writes ≤ writes

namespace JobMark

variable {m : JobMark} {left left' reads reads' writes writes' : ℕ}

/-- Less may be left to do, and more may be done. -/
theorem Within.mono (h : m.Within left reads writes) (hleft : left' ≤ left)
    (hreads : reads ≤ reads') (hwrites : writes ≤ writes') : m.Within left' reads' writes' :=
  ⟨Nat.le_trans (Nat.add_le_add_left hleft _) h.statements, Nat.le_trans h.reads hreads,
    Nat.le_trans h.writes hwrites⟩

/-- A statement uses up one. -/
theorem Within.statement (h : m.Within (left + 1) reads writes) :
    (m.count none).Within left reads writes := by
  refine ⟨?_, h.reads, h.writes⟩
  have hstatements := h.statements
  change m.statements + 1 + left ≤ 6
  omega

/-- So does one that starts a call of the reader's `Transfer`. -/
theorem Within.read (h : m.Within (left + 1) reads writes) :
    (m.count (some .reader)).Within left (reads + 1) writes := by
  refine ⟨?_, Nat.succ_le_succ h.reads, h.writes⟩
  have hstatements := h.statements
  change m.statements + 1 + left ≤ 6
  omega

/-- And one that starts a call of the writer's. -/
theorem Within.write (h : m.Within (left + 1) reads writes) :
    (m.count (some .writer)).Within left reads (writes + 1) := by
  refine ⟨?_, h.reads, Nat.succ_le_succ h.writes⟩
  have hstatements := h.statements
  change m.statements + 1 + left ≤ 6
  omega

end JobMark

/-- Where a tunnel that is told to stop may stand. After its last write it has either found the
writer cancelled, or it is about to find the reader cancelled. -/
def TunnelPc.Winds (readerTold : Prop) (m : JobMark) : TunnelPc → Prop
  | .loop => m.Within 3 1 1
  | .writerStatus => m.Within 6 0 0
  | .read => m.Within 5 0 0
  | .reading _ | .write _ => m.Within 4 1 0
  | .writing _ f => m.Within 5 1 0 ∨ m.Within 3 1 1 ∧ (readerTold ∨ f.pc = .look)
  | .readerStatus _ _ => m.Within 5 1 0 ∨ m.Within 3 1 1 ∧ readerTold
  | .shutdownReader => m.Within 2 1 1
  | .shutdownWriter => m.Within 1 1 1
  | .done => m.Within 0 1 1

namespace TunnelPc

variable {told : Prop} {m : JobMark} {pc : TunnelPc}

/-- Wherever it stands, it has started at most one call on each side. -/
theorem Winds.within (h : pc.Winds told m) : m.Within 0 1 1 := by
  cases pc with
  | loop | writerStatus | read | reading | write | shutdownReader | shutdownWriter | done =>
    exact h.mono (by decide) (by decide) (by decide)
  | writing dr f =>
    rcases h with h | ⟨h, -⟩
    · exact h.mono (by decide) (by decide) (by decide)
    · exact h.mono (by decide) (by decide) (by decide)
  | readerStatus dr left =>
    rcases h with h | ⟨h, -⟩
    · exact h.mono (by decide) (by decide) (by decide)
    · exact h.mono (by decide) (by decide) (by decide)

/-- It may stand anywhere when it is told to. -/
theorem winds_of_zero (hstatements : m.statements = 0) (hreads : m.reads = 0)
    (hwrites : m.writes = 0) : pc.Winds told m := by
  have hwithin : m.Within 6 0 0 :=
    ⟨by rw [hstatements], Nat.le_of_eq hreads, Nat.le_of_eq hwrites⟩
  cases pc with
  | writing | readerStatus => exact .inl (hwithin.mono (by decide) (by decide) (by decide))
  | _ => exact hwithin.mono (by decide) (by decide) (by decide)

end TunnelPc

/-- After a read of at least one byte there is something to write. -/
theorem loaded_afterRead (dr : Int) : (afterRead dr).Loaded := by
  unfold afterRead
  split_ifs
  · trivial
  · trivial
  · change 1 ≤ dr.toNat
    omega

/-- What is to be written stays the same until the round is over. -/
theorem loaded_afterWrite {dr : ℕ} (hdr : 1 ≤ dr) (left : ℕ) (status : Int) :
    (afterWrite dr left status).Loaded := by
  unfold afterWrite
  split_ifs
  · exact hdr
  · trivial
  · trivial

/-- A tunnel that has something to write has at least one byte to write. -/
theorem Tunnel.loaded_step {buffSz : ℕ} {t t' : Tunnel} {a : TunnelAction} (h : t.pc.Loaded)
    (hstep : t.step buffSz a = some t') : t'.pc.Loaded := by
  have hread (out : TransferOutcome) : (readPc out).Loaded := by
    cases out with
    | running f => trivial
    | returned dr => exact loaded_afterRead dr
  have hwrite (dr left : ℕ) (hdr : 1 ≤ dr) (out : TransferOutcome) : (writePc dr left out).Loaded := by
    cases out with
    | running f => exact hdr
    | returned status => exact loaded_afterWrite hdr left status
  cases step_moves hstep with
  | notice side n => cases side <;> exact h
  | cancel => exact h
  | loop =>
    dsimp only
    split <;> trivial
  | writerStatus =>
    dsimp only
    split <;> trivial
  | read => exact hread _
  | write dr hpc =>
    rw [hpc] at h
    exact hwrite dr dr h _
  | readerStatus dr left hpc =>
    rw [hpc] at h
    dsimp only
    unfold afterReaderStatus
    split_ifs
    · exact h
    · trivial
    · trivial
  | shutdownReader | shutdownWriter => trivial
  | reading f a block res => exact hread _
  | writing dr f a block res hpc =>
    rw [hpc] at h
    exact hwrite dr f.dataLeft h _

/-- The flag of the job changes only by a call of `Cancel`. -/
theorem Tunnel.cancel_step {buffSz : ℕ} {t t' : Tunnel} {a : TunnelAction}
    (hstep : t.step buffSz a = some t') (ha : a ≠ .cancel) : t'.cancel = t.cancel := by
  cases step_moves hstep with
  | notice side n => cases side <;> rfl
  | cancel => exact absurd rfl ha
  | _ => rfl

/-- A statement of a tunnel that is told to stop. -/
theorem Tunnel.winds_control {buffSz : ℕ} {t t' : Tunnel} {told : Prop} {m : JobMark}
    (h : t.pc.Winds told m) (hcancel : t.cancel = true) (hloaded : t.pc.Loaded)
    (hreader : told → t.reader.extCnt = nCancel) (hstep : t.step buffSz .control = some t') :
    t'.pc.Winds told (m.count t.pc.starts) := by
  cases step_moves hstep with
  | loop hpc =>
    rw [hpc] at h ⊢
    dsimp only
    rw [if_pos hcancel]
    exact h.statement
  | writerStatus hpc =>
    rw [hpc] at h ⊢
    dsimp only
    split
    · exact h.statement.mono (by decide) (by decide) (by decide)
    · exact h.statement
  | read hpc =>
    rw [hpc] at h ⊢
    dsimp only
    have hnext : (m.count (some .reader)).Within 4 1 0 := h.read
    cases transferEnter t.reader buffSz true with
    | running f => exact hnext
    | returned dr =>
      simp only [readPc, afterRead]
      split_ifs
      · exact hnext.mono (by decide) (by decide) (by decide)
      · exact hnext.mono (by decide) (by decide) (by decide)
      · exact hnext
  | write dr hpc =>
    rw [hpc] at h hloaded ⊢
    dsimp only
    have hnext : (m.count (some .writer)).Within 3 1 1 := h.write
    cases henter : transferEnter t.writer dr false with
    | running f =>
      obtain ⟨-, hlook, -⟩ := transferEnter_running henter
      exact .inr ⟨hnext, .inr hlook⟩
    | returned status =>
      have hneg : status < 0 := by
        rcases transferEnter_returned henter with ⟨hneg, -⟩ | ⟨-, hlen, -⟩
        · exact hneg
        · have hpos : 1 ≤ dr := hloaded
          omega
      rw [writePc, afterWrite, if_neg (by omega), if_pos hneg]
      exact hnext.mono (by decide) (by decide) (by decide)
  | readerStatus dr left hpc =>
    rw [hpc] at h ⊢
    dsimp only
    unfold afterReaderStatus
    rcases h with h | ⟨h, htold⟩
    · split_ifs
      · exact h.statement
      · exact h.statement.mono (by decide) (by decide) (by decide)
      · exact h.statement.mono (by decide) (by decide) (by decide)
    · have hstatus : t.reader.getStatus = -2 := by
        unfold TCPCommHelper.getStatus
        rw [hreader htold, if_neg (by decide), if_pos rfl]
      rw [hstatus, if_neg (by decide), if_pos (by decide)]
      exact h.statement
  | shutdownReader hpc | shutdownWriter hpc =>
    rw [hpc] at h ⊢
    exact h.statement

/-- A step inside a `Transfer` of a tunnel that is told to stop. -/
theorem Tunnel.winds_transfer {buffSz : ℕ} {t t' : Tunnel} {told : Prop} {m : JobMark}
    {a : TransferAction} {block : Bytes} (h : t.pc.Winds told m)
    (hone : t.pc.isSettled = false → told ∨ t.writer.extCnt = nCancel ∧ t.writer.intCnt < nHup)
    (hstep : t.step buffSz (.transfer a block) = some t') : t'.pc.Winds told m := by
  cases step_moves hstep with
  | reading f a block res hpc =>
    rw [hpc] at h
    dsimp only
    cases res.outcome with
    | running f' => exact h
    | returned dr =>
      simp only [readPc, afterRead]
      split_ifs
      · exact h.mono (by decide) (by decide) (by decide)
      · exact h.mono (by decide) (by decide) (by decide)
      · exact h
  | writing dr f a block res hpc hmoves =>
    rw [hpc] at h
    dsimp only
    -- the call goes on or returns, and if it is the last one, the reader is cancelled
    have hgoes (hready : m.Within 5 1 0 ∨ m.Within 3 1 1 ∧ told) :
        (writePc dr f.dataLeft res.outcome).Winds told m := by
      have hleaves : m.Within 3 1 1 := by
        rcases hready with hnone | ⟨hlast, -⟩
        · exact hnone.mono (by decide) (by decide) (by decide)
        · exact hlast
      cases res.outcome with
      | running f' => exact hready.imp_right fun hlast => ⟨hlast.1, .inl hlast.2⟩
      | returned status =>
        simp only [writePc, afterWrite]
        split_ifs
        · exact hready
        · exact hleaves.mono (by decide) (by decide) (by decide)
        · exact hleaves
    rcases h with hnone | ⟨hlast, htold | hlook⟩
    · exact hgoes (.inl hnone)
    · exact hgoes (.inr ⟨hlast, htold⟩)
    · rcases hone (by rw [hpc]; rfl) with htold | ⟨hext, hint⟩
      · exact hgoes (.inr ⟨hlast, htold⟩)
      · have hlt : t.writer.intCnt < t.writer.extCnt := by
          rw [hext]
          exact Nat.lt_trans hint (by decide)
        cases hmoves with
        | blocked _ hle => exact absurd hle (by omega)
        | snapshot _ _ hne => exact absurd hext hne
        | cancelled => exact hlast.mono (by decide) (by decide) (by decide)
        | woken hpc' | timedOut hpc' =>
          rw [hlook] at hpc'
          cases hpc'
        | called _ _ _ hpc' | complete _ _ hpc' | partialDone _ _ hpc' | failed _ _ hpc'
        | again _ _ hpc' =>
          rw [hlook] at hpc'
          cases hpc'

/-- The inner loop goes round once: the write times out, and the reader is found in order. -/
def writeRound : List TunnelAction :=
  [.control, .transfer .look [], .transfer .timeout [], .control]

/-- A tunnel whose helpers are not cancelled is where it was after such a round, whether its flag is
set or not. -/
theorem Tunnel.write_repeats {t : Tunnel} {dr : ℕ} (buffSz : ℕ) (hpc : t.pc = .write dr)
    (hdr : 1 ≤ dr) (hreader : t.reader.getStatus = 0) (hwriter : t.writer.status = 0)
    (hseen : t.writer.extCnt ≤ t.writer.intCnt) :
    runActions (Tunnel.step buffSz) t writeRound = some t := by
  obtain ⟨pc, cancel, errno, reader, writer, buff, input, accepted⟩ := t
  dsimp only at hpc hreader hwriter hseen
  subst hpc
  have henter : transferEnter writer dr false = .running ⟨dr, false, dr, .look⟩ := by
    rw [transferEnter, hwriter, if_neg (by decide), if_neg (by omega), Int.toNat_natCast]
  simp [runActions, writeRound, Tunnel.step, control, transfer, henter, writePc, transferStep,
    transferLook, hseen, afterWrite, afterReaderStatus, hreader, TransferAction.size]

/-- So a destination that accepts nothing keeps such a tunnel for as many rounds as one likes. -/
theorem Tunnel.never_returns {t : Tunnel} {dr : ℕ} (buffSz rounds : ℕ) (hpc : t.pc = .write dr)
    (hdr : 1 ≤ dr) (hreader : t.reader.getStatus = 0) (hwriter : t.writer.status = 0)
    (hseen : t.writer.extCnt ≤ t.writer.intCnt) :
    runActions (Tunnel.step buffSz) t (List.replicate rounds writeRound).flatten = some t := by
  induction rounds with
  | zero => rfl
  | succ rounds ih =>
    rw [List.replicate_succ, List.flatten_cons, runActions_append,
      write_repeats buffSz hpc hdr hreader hwriter hseen, Option.bind_some]
    exact ih

/-- A helper is used, but not notified. -/
def TCPCommHelper.Drives (h h' : TCPCommHelper) : Prop :=
  h'.extCnt = h.extCnt ∧ (h.intCnt < nHup → h'.intCnt < nHup)

/-- Nothing happened to it. -/
theorem TCPCommHelper.Drives.refl (h : TCPCommHelper) : h.Drives h := ⟨rfl, fun hint => hint⟩

/-- `Shutdown` changes the status only. -/
theorem TCPCommHelper.drives_shutdown (h : TCPCommHelper) : h.Drives h.shutdown.1 := by
  unfold shutdown
  split
  · exact .refl h
  · exact ⟨rfl, fun hint => hint⟩

/-- So does each step of `Transfer`, apart from the counter of what was seen. -/
theorem TransferMoves.drives {h : TCPCommHelper} {errno : ℕ} {f : TransferFrame}
    {a : TransferAction} {r : TransferResult} (hmoves : TransferMoves h errno f a r) :
    h.Drives r.helper :=
  ⟨hmoves.extCnt_eq, hmoves.intCnt_lt⟩

/-- A job notifies no helper, its own included. -/
theorem Tunnel.drives_step {buffSz : ℕ} {t t' : Tunnel} {a : TunnelAction}
    (hstep : t.step buffSz a = some t') (ha : ∀ side n, a ≠ .notice side n) :
    t.reader.Drives t'.reader ∧ t.writer.Drives t'.writer := by
  cases step_moves hstep with
  | notice side n => exact absurd rfl (ha side n)
  | cancel | loop | writerStatus | read | write | readerStatus => exact ⟨.refl _, .refl _⟩
  | shutdownReader => exact ⟨t.reader.drives_shutdown, .refl _⟩
  | shutdownWriter => exact ⟨.refl _, t.writer.drives_shutdown⟩
  | reading f a block res hpc hblock hmoves => exact ⟨hmoves.drives, .refl _⟩
  | writing dr f a block res hpc hmoves => exact ⟨.refl _, hmoves.drives⟩

end TinySox
