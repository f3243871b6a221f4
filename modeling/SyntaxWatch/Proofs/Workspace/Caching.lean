import SyntaxWatch.Proofs.Collection.Shelving
import SyntaxWatch.Proofs.Order.Keyed
import SyntaxWatch.Proofs.Uri.FileName

/-!
# A host that remembers

A host keeps the documents that it was told to load and the collections that it has handed out. Files change
meanwhile without its knowing. Everything that is asked of it is written down together with the files of that
moment (`Turn`), so the log says by itself what a host without any memory would have seen: which documents were
read from files (`readings`), and all collections that were ever made (`collections`).

What is kept is a function of the log: of the readings of one URI the first, with the text of the last
(`Workspace.kept?`). The invariant `Recorded` says so, and every act keeps it, by one lemma for each thing an act can do;
a load is either of a new document or of one that is there (`Stored`). A refused load and a lookup do nothing.
-/

set_option autoImplicit false

namespace SyntaxWatch

/-! ## 1. Loading -/

namespace Documents

/-- What a document becomes when its file is read again. -/
def renew (text : String) (d : Document) : Document := { d with text := text }

theorem ref?_append {ds : Documents} {r : DocumentRef} (h : ds.ref? r.number = some r) (others : Documents) :
    ref? (ds ++ others) r.number = some r := by
  obtain ⟨d, hd, hr⟩ := Option.map_eq_some_iff.mp h
  refine Option.map_eq_some_iff.mpr ⟨d, ?_, hr⟩
  rw [List.getElem?_append_left (List.getElem?_eq_some_iff.mp hd).1, hd]

theorem ref?_modify (ds : Documents) (n : Nat) (text : String) (number : Nat) :
    ref? (ds.modify n (renew text)) number = ds.ref? number := by
  unfold ref?
  rw [List.getElem?_modify]
  cases ds[number]? with
  | none => rfl
  | some d =>
    show some _ = some _
    split_ifs <;> rfl

end Documents

namespace Workspace

variable {w : Workspace} {files : FileTree} {p : Path} {d : Document}

/-- The document that is read from a file, where nothing is remembered. None if the path has no URI or the file
cannot be read as text. -/
def reading? (w : Workspace) (files : FileTree) (p : Path) : Option Document :=
  match Uri.ofPath p, files.readText .root p with
  | .ok uri, .ok text => some (.ofText uri (w.languageOf p) text)
  | _, _ => none

/-- What becomes of a document that has been read: it is put behind the others, or renews the one that is there. -/
inductive Stored (w : Workspace) (d : Document) : Workspace → DocumentRef → Prop where
  | added (hnew : d.uri ∉ w.documents.map (·.uri)) :
      Stored w d { w with documents := w.documents ++ [d] } ⟨w.documents.length, d.uri, d.language⟩
  | renewed (n : Nat) (old : Document) (hold : w.documents[n]? = some old) (hsame : old.uri = d.uri) :
      Stored w d { w with documents := w.documents.modify n (Documents.renew d.text) } ⟨n, d.uri, old.language⟩

theorem number?_eq_none {uri : Uri} (h : w.number? uri = none) : uri ∉ w.documents.map (·.uri) := by
  unfold number? at h
  rw [List.findIdx?_eq_none_iff] at h
  intro hmem
  obtain ⟨d, hd, rfl⟩ := List.mem_map.mp hmem
  simpa using h d hd

/-- A load stores what is read. -/
theorem load_of_reading (h : w.reading? files p = some d) :
    ∃ next document, w.load files p = .ok (next, document) ∧ w.Stored d next document := by
  unfold reading? at h
  unfold Workspace.load
  cases huri : Uri.ofPath p with
  | error e => simp [huri] at h
  | ok uri =>
    cases hread : files.readText .root p with
    | error cause => simp [huri, hread] at h
    | ok text =>
      rw [huri, hread] at h
      obtain rfl : Document.ofText uri (w.languageOf p) text = d := Option.some.inj h
      cases hnumber : w.number? uri with
      | none =>
        simp only [hnumber]
        exact ⟨_, _, rfl, .added (number?_eq_none hnumber)⟩
      | some n =>
        obtain ⟨old, hold, hsame⟩ := number?_eq_some hnumber
        simp only [hnumber, hold]
        exact ⟨_, _, rfl, .renewed n old hold hsame⟩

/-- Where nothing is read, the load is refused. -/
theorem load_of_no_reading (h : w.reading? files p = none) : ∃ e, w.load files p = .error e := by
  unfold reading? at h
  unfold Workspace.load
  cases huri : Uri.ofPath p with
  | error e => exact ⟨_, rfl⟩
  | ok uri =>
    cases hread : files.readText .root p with
    | error cause => exact ⟨_, rfl⟩
    | ok text => simp [huri, hread] at h

theorem Stored.uri {next : Workspace} {document : DocumentRef} (h : w.Stored d next document) :
    document.uri = d.uri := by
  cases h <;> rfl

theorem Stored.language {next : Workspace} {document : DocumentRef} (h : w.Stored d next document) :
    next.language = w.language := by
  cases h <;> rfl

/-- The document is handed out under its number. -/
theorem Stored.ref? {next : Workspace} {document : DocumentRef} (h : w.Stored d next document) :
    next.documents.ref? document.number = some document := by
  cases h with
  | added hnew => simp [Documents.ref?]
  | renewed n old hold hsame =>
    rw [Documents.ref?_modify]
    simp [Documents.ref?, hold, hsame]

/-- Whatever was handed out before is still there under its number. -/
theorem Stored.ref?_of_ref? {next : Workspace} {document : DocumentRef} (h : w.Stored d next document)
    {r : DocumentRef} (hr : w.documents.ref? r.number = some r) : next.documents.ref? r.number = some r := by
  cases h with
  | added hnew => exact Documents.ref?_append hr [d]
  | renewed n old hold hsame => rw [Documents.ref?_modify, hr]

theorem languageOf_of_language {other : Workspace} (h : w.language = other.language) (p : Path) :
    w.languageOf p = other.languageOf p := by
  unfold languageOf
  rw [h]

theorem reading?_of_language {other : Workspace} (h : w.language = other.language) :
    w.reading? files p = other.reading? files p := by
  unfold reading?
  rw [languageOf_of_language h]

/-! ## 2. What is kept of what is read -/

/-- What is kept of all that was read of one document: the first reading, with the text of the last. -/
def kept? (readings : List Document) : Option Document :=
  match readings.head?, readings.getLast? with
  | some first, some last => some (Documents.renew last.text first)
  | _, _ => none

theorem kept?_eq_none {readings : List Document} (h : kept? readings = none) : readings = [] := by
  cases readings with
  | nil => rfl
  | cons first others =>
    unfold kept? at h
    rw [List.head?_cons, List.getLast?_cons] at h
    cases h

theorem kept?_snoc {readings : List Document} {old : Document} (h : kept? readings = some old) (d : Document) :
    kept? (readings ++ [d]) = some (Documents.renew d.text old) := by
  cases readings with
  | nil => cases h
  | cons first others =>
    unfold kept? at h ⊢
    rw [List.head?_cons, List.getLast?_cons] at h
    rw [List.cons_append, List.head?_cons, ← List.cons_append, List.getLast?_concat]
    rw [← Option.some.inj h]
    rfl

/-- The documents are what is kept of all that was read, one for each URI. -/
structure Keeps (w : Workspace) (readings : Uri → List Document) : Prop where
  once : (w.documents.map (·.uri)).Nodup
  held : ∀ uri, w.documents.find? (fun d => d.uri = uri) = kept? (readings uri)

/-- **What is read is kept**, and nothing else changes. -/
theorem Keeps.stored {readings : Uri → List Document} (h : w.Keeps readings) {next : Workspace}
    {document : DocumentRef} (hstored : w.Stored d next document) :
    next.Keeps fun uri => if d.uri = uri then readings uri ++ [d] else readings uri := by
  cases hstored with
  | added hnew =>
    refine ⟨?_, fun uri => ?_⟩
    · rw [List.map_append]
      exact List.nodup_append'.mpr ⟨h.once, List.nodup_singleton _, by simpa using hnew⟩
    · rw [List.find?_append, h.held]
      by_cases hd : d.uri = uri
      · subst hd
        -- nothing was read of this document before, so its first reading is also its last
        have hnone : kept? (readings d.uri) = none := by
          rw [← h.held, find?_key_eq_none_iff]
          exact hnew
        rw [if_pos rfl, hnone, kept?_eq_none hnone, Option.none_or, List.find?_cons_of_pos (by simp)]
        rfl
      · rw [if_neg hd, List.find?_cons_of_neg (by simpa using hd), List.find?_nil, Option.or_none]
  | renewed n old hold hsame =>
    have hkeeps : ∀ x, (Documents.renew d.text x).uri = x.uri := fun _ => rfl
    refine ⟨?_, fun uri => ?_⟩
    · rw [map_key_modify Document.uri hkeeps]
      exact h.once
    · rw [find?_modify_key Document.uri hkeeps h.once hold]
      by_cases hd : d.uri = uri
      · have hfound : kept? (readings uri) = some old := by
          rw [← h.held, find?_key_iff Document.uri h.once]
          exact ⟨List.mem_of_getElem? hold, hsame.trans hd⟩
        rw [if_pos hd, if_pos (hd.symm.trans hsame.symm), kept?_snoc hfound]
      · rw [if_neg hd, if_neg fun h => hd (hsame.symm.trans h.symm), h.held]

end Workspace

/-! ## 3. The host and its log -/

inductive Announcement where
  | opened
  | changed
  deriving DecidableEq, Repr

/-- The files as they are now, and what is remembered: documents, collections, and what has been announced. -/
structure FileHost where
  files : FileTree
  workspace : Workspace
  shelf : Shelf
  announced : List (Announcement × DocumentRef)

namespace FileHost

def start (root : Path) (language : Option String) (files : FileTree) : FileHost :=
  ⟨files, .new root language, .empty, []⟩

inductive Act where
  /-- The files change, behind the host's back. -/
  | filesBecome (files : FileTree)
  /-- A file is loaded; its document is announced if that is wanted. -/
  | load (announcement : Option Announcement) (p : Path)
  | lookUp (uri : Uri)
  | shelve (act : Shelf.Act)

inductive Answer where
  | loaded (outcome : Except LoadError DocumentRef)
  | found (outcome : Except LookupError Document)
  | silence

def load (h : FileHost) (announcement : Option Announcement) (p : Path) : FileHost × Answer :=
  match h.workspace.load h.files p with
  | .error e => (h, .loaded (.error e))
  | .ok (workspace, document) =>
    ({ h with
        workspace := workspace
        announced := h.announced ++ announcement.toList.map fun a => (a, document) },
      .loaded (.ok document))

def perform (h : FileHost) : Act → FileHost × Answer
  | .filesBecome files => ({ h with files := files }, .silence)
  | .load announcement p => h.load announcement p
  | .lookUp uri => (h, .found (h.workspace.lookUp h.files uri))
  | .shelve act => ({ h with shelf := h.shelf.perform act }, .silence)

/-- An act with the files of that moment, and what it was answered. -/
structure Turn where
  files : FileTree
  act : Act
  answer : Answer

namespace Turn

/-- The document that was read from a file. -/
def reading? (w : Workspace) (t : Turn) : Option Document :=
  match t.act with
  | .load _ p => w.reading? t.files p
  | _ => none

/-- The document that was handed out. -/
def handed? (t : Turn) : Option DocumentRef :=
  match t.answer with
  | .loaded (.ok document) => some document
  | _ => none

def shelving? (t : Turn) : Option Shelf.Act :=
  match t.act with
  | .shelve act => some act
  | _ => none

end Turn

/-- All that was read from the file of a URI, in order. -/
def readings (w : Workspace) (log : List Turn) (uri : Uri) : List Document :=
  (log.filterMap (Turn.reading? w)).filter fun d => d.uri = uri

/-- The documents that were handed out, in order. -/
def handed (log : List Turn) : List DocumentRef := log.filterMap Turn.handed?

def shelvings (log : List Turn) : List Shelf.Act := log.filterMap Turn.shelving?

/-- All collections that were made, in order, as they are now. -/
def collections (log : List Turn) : List Collection := Shelf.everMade (shelvings log)

def proceed (now : List Turn × FileHost) (act : Act) : List Turn × FileHost :=
  (now.1 ++ [⟨now.2.files, act, (now.2.perform act).2⟩], (now.2.perform act).1)

/-- A host after some acts, with their log. -/
def after (h : FileHost) (acts : List Act) : List Turn × FileHost := acts.foldl proceed ([], h)

theorem after_snoc (h : FileHost) (acts : List Act) (act : Act) :
    h.after (acts ++ [act]) = proceed (h.after acts) act := by
  unfold after
  rw [List.foldl_append]
  rfl

section Log

variable {w : Workspace} {log : List Turn} {t : Turn}

theorem readings_snoc_of_none (h : t.reading? w = none) : readings w (log ++ [t]) = readings w log := by
  funext uri
  simp [readings, h]

theorem readings_snoc_of_some {d : Document} (h : t.reading? w = some d) :
    readings w (log ++ [t])
      = fun uri => if d.uri = uri then readings w log uri ++ [d] else readings w log uri := by
  funext uri
  by_cases hd : d.uri = uri <;> simp [readings, h, hd]

theorem handed_snoc_of_none (h : t.handed? = none) : handed (log ++ [t]) = handed log := by
  simp [handed, h]

theorem handed_snoc_of_some {r : DocumentRef} (h : t.handed? = some r) : handed (log ++ [t]) = handed log ++ [r] := by
  simp [handed, h]

theorem collections_snoc_of_none (h : t.shelving? = none) : collections (log ++ [t]) = collections log := by
  simp [collections, shelvings, h]

theorem collections_snoc_of_some {act : Shelf.Act} (h : t.shelving? = some act) :
    collections (log ++ [t]) = act.remember (collections log) := by
  unfold collections shelvings
  rw [List.filterMap_append, ← Shelf.everMade_snoc]
  simp [h]

end Log

/-! ## 4. The log says what is remembered -/

/-- What is remembered is what the log says. -/
structure Recorded (w : Workspace) (log : List Turn) (h : FileHost) : Prop where
  language : h.workspace.language = w.language
  keeps : h.workspace.Keeps (readings w log)
  inPlace : ∀ r ∈ handed log, h.workspace.documents.ref? r.number = some r
  accounts : Shelf.Accounts (collections log) h.shelf

variable {w : Workspace} {log : List Turn} {h : FileHost}

theorem recorded_start (root : Path) (language : Option String) (files : FileTree) :
    Recorded (.new root language) [] (start root language files) :=
  ⟨rfl, ⟨List.nodup_nil, fun _ => rfl⟩, nofun, Shelf.accounts_empty⟩

/-- Where nothing is read and nothing is shelved, nothing new is remembered, whatever the files become. -/
theorem Recorded.aside (hrec : Recorded w log h) {t : Turn} (hreading : t.reading? w = none)
    (hhanded : t.handed? = none) (hshelving : t.shelving? = none) (files : FileTree) :
    Recorded w (log ++ [t]) { h with files := files } := by
  refine ⟨hrec.language, ?_, ?_, ?_⟩
  · rw [readings_snoc_of_none hreading]
    exact hrec.keeps
  · rw [handed_snoc_of_none hhanded]
    exact hrec.inPlace
  · rw [collections_snoc_of_none hshelving]
    exact hrec.accounts

/-- A load reads what a host without a memory would read. -/
theorem Recorded.reading? (hrec : Recorded w log h) (p : Path) :
    h.workspace.reading? h.files p = w.reading? h.files p := Workspace.reading?_of_language hrec.language

theorem Recorded.load_of_none (hrec : Recorded w log h) {p : Path} (hnone : w.reading? h.files p = none)
    (announcement : Option Announcement) : ∃ e, h.load announcement p = (h, .loaded (.error e)) := by
  rw [← hrec.reading?] at hnone
  obtain ⟨e, he⟩ := Workspace.load_of_no_reading hnone
  refine ⟨e, ?_⟩
  unfold FileHost.load
  rw [he]

theorem Recorded.load_of_some (hrec : Recorded w log h) {p : Path} {d : Document}
    (hsome : w.reading? h.files p = some d) (announcement : Option Announcement) :
    ∃ next document, h.workspace.Stored d next document
      ∧ h.load announcement p
          = ({ h with
                workspace := next
                announced := h.announced ++ announcement.toList.map fun a => (a, document) },
              .loaded (.ok document)) := by
  rw [← hrec.reading?] at hsome
  obtain ⟨next, document, hload, hstored⟩ := Workspace.load_of_reading hsome
  refine ⟨next, document, hstored, ?_⟩
  unfold FileHost.load
  rw [hload]

theorem Recorded.load (hrec : Recorded w log h) (announcement : Option Announcement) (p : Path) :
    Recorded w (log ++ [⟨h.files, .load announcement p, (h.load announcement p).2⟩])
      (h.load announcement p).1 := by
  cases hreading : w.reading? h.files p with
  | none =>
    obtain ⟨e, he⟩ := hrec.load_of_none hreading announcement
    rw [he]
    exact hrec.aside (t := ⟨h.files, .load announcement p, _⟩) hreading rfl rfl h.files
  | some d =>
    obtain ⟨next, document, hstored, hload⟩ := hrec.load_of_some hreading announcement
    rw [hload]
    refine ⟨hstored.language.trans hrec.language, ?_, ?_, ?_⟩
    · rw [readings_snoc_of_some (t := ⟨h.files, .load announcement p, _⟩) hreading]
      exact hrec.keeps.stored hstored
    · rw [handed_snoc_of_some rfl]
      intro r hr
      rcases List.mem_append.mp hr with hr | hr
      · exact hstored.ref?_of_ref? (hrec.inPlace r hr)
      · rw [List.mem_singleton.mp hr]
        exact hstored.ref?
    · rw [collections_snoc_of_none rfl]
      exact hrec.accounts

theorem Recorded.shelve (hrec : Recorded w log h) (act : Shelf.Act) :
    Recorded w (log ++ [⟨h.files, .shelve act, .silence⟩]) { h with shelf := h.shelf.perform act } := by
  refine ⟨hrec.language, ?_, ?_, ?_⟩
  · rw [readings_snoc_of_none rfl]
    exact hrec.keeps
  · rw [handed_snoc_of_none rfl]
    exact hrec.inPlace
  · rw [collections_snoc_of_some rfl]
    exact hrec.accounts.perform act

/-- **Every act keeps the record.** -/
theorem Recorded.perform (hrec : Recorded w log h) (act : Act) :
    Recorded w (log ++ [⟨h.files, act, (h.perform act).2⟩]) (h.perform act).1 := by
  cases act with
  | filesBecome files => exact hrec.aside rfl rfl rfl files
  | load announcement p => exact hrec.load announcement p
  | lookUp uri => exact hrec.aside rfl rfl rfl h.files
  | shelve act => exact hrec.shelve act

theorem after_recorded (root : Path) (language : Option String) (files : FileTree) (acts : List Act) :
    Recorded (.new root language) ((start root language files).after acts).1
      ((start root language files).after acts).2 := by
  induction acts using List.reverseRecOn with
  | nil => exact recorded_start root language files
  | append_singleton acts act ih =>
    rw [after_snoc]
    exact ih.perform act

/-! ## 5. What can be seen -/

/-- A host as it is seen from outside: it answers by the log and by the files as they are now. -/
structure Transparent (w : Workspace) (log : List Turn) (h : FileHost) : Prop where
  /-- No URI has two documents. -/
  once : (h.workspace.documents.map (·.uri)).Nodup
  /-- A document has the language of its first reading and the text of its last. -/
  held : ∀ uri, h.workspace.documents.find? (fun d => d.uri = uri) = Workspace.kept? (readings w log uri)
  /-- Whatever was handed out is the one document of its URI, as it is now. -/
  shared : ∀ r ∈ handed log, h.workspace.documents.ref? r.number = some r
    ∧ h.workspace.documents[r.number]? = Workspace.kept? (readings w log r.uri)
  /-- A load hands a document out just when there is something to be read. -/
  loads : ∀ announcement p d, w.reading? h.files p = some d →
    ∃ r, (h.perform (.load announcement p)).2 = .loaded (.ok r) ∧ r.uri = d.uri
  /-- Otherwise it is refused, and nothing changes. -/
  refuses : ∀ announcement p, w.reading? h.files p = none →
    ∃ e, h.perform (.load announcement p) = (h, .loaded (.error e))
  /-- What is kept is what a lookup finds. -/
  finds : ∀ uri d, Workspace.kept? (readings w log uri) = some d →
    h.perform (.lookUp uri) = (h, .found (.ok d))
  /-- What was never read is read now, and not kept. -/
  visits : ∀ uri, readings w log uri = [] → ∃ outcome, h.perform (.lookUp uri) = (h, .found outcome)
    ∧ ∀ d, outcome = .ok d ↔ ∃ p text, uri.toPath? = some p ∧ h.files.readText .root p = .ok text
        ∧ d = .ofText uri (w.languageOf p) text
  /-- Of all collections that were made, those in use are shown. -/
  live : h.shelf.live = (collections log).filter fun c => !c.disposed
  newest : ∀ name, Collection.newest? h.shelf.live name
    = ((collections log).filter fun c => !c.disposed && decide (c.name = name)).getLast?
  names : (collections log).map Collection.name = (shelvings log).filterMap Shelf.Act.created?

theorem Recorded.shared (hrec : Recorded w log h) {r : DocumentRef} (hr : r ∈ handed log) :
    h.workspace.documents[r.number]? = Workspace.kept? (readings w log r.uri) := by
  obtain ⟨d, hd, hsame⟩ := Option.map_eq_some_iff.mp (hrec.inPlace r hr)
  rw [hd, ← hrec.keeps.held, eq_comm, find?_key_iff Document.uri hrec.keeps.once]
  exact ⟨List.mem_of_getElem? hd, congrArg DocumentRef.uri hsame⟩

theorem Recorded.visits (hrec : Recorded w log h) {uri : Uri} (hnone : readings w log uri = []) (d : Document) :
    h.workspace.lookUp h.files uri = .ok d ↔
      ∃ p text, uri.toPath? = some p ∧ h.files.readText .root p = .ok text
        ∧ d = .ofText uri (w.languageOf p) text := by
  have hfind : h.workspace.documents.find? (fun d => d.uri = uri) = none := by
    rw [hrec.keeps.held, hnone]
    rfl
  have hlanguage : ∀ p, h.workspace.languageOf p = w.languageOf p :=
    Workspace.languageOf_of_language hrec.language
  unfold Workspace.lookUp
  rw [hfind]
  cases hpath : uri.toPath? with
  | none => simp
  | some p =>
    cases hread : h.files.readText .root p with
    | error cause => simp [hread]
    | ok text => simp [hread, hlanguage, eq_comm]

theorem Recorded.transparent (hrec : Recorded w log h) : Transparent w log h where
  once := hrec.keeps.once
  held := hrec.keeps.held
  shared := fun r hr => ⟨hrec.inPlace r hr, hrec.shared hr⟩
  loads := by
    intro announcement p d hreading
    obtain ⟨next, document, hstored, hload⟩ := hrec.load_of_some hreading announcement
    exact ⟨document, congrArg Prod.snd hload, hstored.uri⟩
  refuses := fun announcement p hnone => hrec.load_of_none hnone announcement
  finds := by
    intro uri d hkept
    rw [← hrec.keeps.held] at hkept
    have hfound : h.workspace.lookUp h.files uri = .ok d := by
      unfold Workspace.lookUp
      rw [hkept]
    show (h, Answer.found (h.workspace.lookUp h.files uri)) = _
    rw [hfound]
  visits := fun uri hnone => ⟨_, rfl, hrec.visits hnone⟩
  live := hrec.accounts.live
  newest := by
    intro name
    rw [hrec.accounts.live, Collection.newest?_filter]
  names := Shelf.names_everMade _

/-- **What a host remembers cannot be seen from outside**, whatever is asked of it and however the files change. -/
theorem caches_transparent (root : Path) (language : Option String) (files : FileTree) (acts : List Act) :
    Transparent (.new root language) ((start root language files).after acts).1
      ((start root language files).after acts).2 :=
  (after_recorded root language files acts).transparent

end FileHost

end SyntaxWatch
