import Mathlib.Data.List.Nodup
import Mathlib.Data.Set.Function
import Playground.Proofs.Sources

/-!
# Digests of files

A digest is 64 lowercase hexadecimal digits.  The digest of a set of files is that of the lines
`F:name:digest`, one for each file, in which names stand as they are.  A name that holds a line feed
can take in a whole line and go on as the next one, so different sets of files can have the same
lines (`fileLines_merged`), and a file can be renamed without a change of them (`ofFiles_renamed`).
Otherwise the lines settle the files, and so does the digest, as long as no two of the contents and
lines share one.

Main statement: `Digest.eq_or_overlaps_of_ofFiles`.
-/

namespace Playground

open Playground.Bytes

/-! ### Hexadecimal digests -/

def hexDigits : List Char := "0123456789abcdef".toList

def Digest.length : Nat := 64

/-- Whether a digest is one that content can have: so many lowercase digits. -/
def Digest.IsHex (d : Digest) : Prop :=
  d.text.toList.length = Digest.length ∧ ∀ c ∈ d.text.toList, c ∈ hexDigits

instance (d : Digest) : Decidable d.IsHex := inferInstanceAs (Decidable (_ ∧ _))

theorem Hex.length_digits (xs : List UInt8) : (Hex.digits xs).length = 2 * xs.length := by
  induction xs with
  | nil => rfl
  | cons x xs ih =>
    have hdigits : Hex.digits (x :: xs) =
        Hex.digit (x.toNat / 16) :: Hex.digit (x.toNat % 16) :: Hex.digits xs := rfl
    simp only [hdigits, List.length_cons, ih]
    omega

theorem Hex.mem_hexDigits {xs : List UInt8} {c : Char} (h : c ∈ Hex.digits xs) : c ∈ hexDigits := by
  have hdigit : ∀ n < 16, Hex.digit n ∈ hexDigits := by decide
  obtain ⟨x, -, hx⟩ := List.mem_flatMap.1 h
  have hlt : x.toNat < 256 := x.toNat_lt
  simp only [List.mem_cons, List.not_mem_nil, or_false] at hx
  rcases hx with rfl | rfl
  · exact hdigit _ (by omega)
  · exact hdigit _ (by omega)

theorem Sha256.length_digest (b : ByteArray) : (octets (Sha256.digest b)).length = 32 := by
  rw [Sha256.digest, octets_ofOctets]
  simp [Sha256.State.words]

theorem Digest.isHex_ofBytes (b : ByteArray) : (Digest.ofBytes b).IsHex := by
  have htext : (Digest.ofBytes b).text.toList = Hex.digits (octets (Sha256.digest b)) := by
    rw [Digest.ofBytes, Hex.encode, String.toList_ofList]
  rw [Digest.IsHex, htext]
  refine ⟨?_, fun c hc => Hex.mem_hexDigits hc⟩
  rw [Hex.length_digits, Sha256.length_digest, Digest.length]

namespace Digest

variable {files files' : Named ByteArray} {name name' : String} {d d' : Digest}
  {es es' : List (String × Digest)} {e e' : String × Digest}

/-! ### Contents told apart -/

/-- The first two digits, as octets. -/
def start (d : Digest) : List UInt8 := (octets d.text.toByteArray).take 2

theorem injOn_of_nodup {contents : List ByteArray}
    (h : (contents.map fun b => (ofBytes b).start).Nodup) :
    Set.InjOn ofBytes {b | b ∈ contents} :=
  fun _ hb _ hc hdigest => List.inj_on_of_nodup_map h hb hc (congrArg start hdigest)

/-! ### Lines -/

/-- The lines of some entries. -/
def spelled (es : List (String × Digest)) : List Char :=
  es.flatMap fun (name, d) => 'F' :: ':' :: (name.toList ++ ':' :: (d.text.toList ++ ['\n']))

theorem spelled_cons (name : String) (d : Digest) (es : List (String × Digest)) :
    spelled ((name, d) :: es) =
      'F' :: ':' :: (name.toList ++ ':' :: (d.text.toList ++ '\n' :: spelled es)) := by
  simp [spelled]

theorem spelled_append (es es' : List (String × Digest)) :
    spelled (es ++ es') = spelled es ++ spelled es' := List.flatMap_append

/-- The files of a set with the digests of their contents. -/
def entries (files : Named ByteArray) : List (String × Digest) :=
  files.toList.map fun (name, content) => (name, ofBytes content)

theorem mem_entries : (name, d) ∈ entries files ↔
    ∃ content, files[name]? = some content ∧ ofBytes content = d := Named.mem_map_toList

theorem fileLine_eq (name : String) (content : ByteArray) :
    fileLine name content = (String.ofList (spelled [(name, ofBytes content)])).toByteArray := by
  rw [fileLine, String.toByteArray_inj, ← String.toList_inj, spelled_cons]
  simp [spelled]

theorem fileLines_eq (files : Named ByteArray) :
    fileLines files = (String.ofList (spelled (entries files))).toByteArray := by
  have hlines : ∀ (contents : List (String × ByteArray)) (lines : ByteArray),
      contents.foldl (fun lines content => lines.append (fileLine content.1 content.2)) lines =
        lines ++ (String.ofList (spelled
          (contents.map fun (name, content) => (name, ofBytes content)))).toByteArray := by
    intro contents
    induction contents with
    | nil => intro lines; simp [spelled]
    | cons content contents ih =>
      intro lines
      rw [List.foldl_cons, ih, fileLine_eq, ByteArray.append_eq, ByteArray.append_assoc,
        ← String.toByteArray_append, ← String.ofList_append, ← spelled_append]
      rfl
  rw [fileLines, Std.ExtTreeMap.foldl_eq_foldl_toList, hlines]
  simp [entries]

/-- Some name of the second entries begins with the line of one of the first, but for the mark in
front, and goes on as the next line does. -/
def Overlaps (es es' : List (String × Digest)) : Prop :=
  ∃ e ∈ es, ∃ e' ∈ es', e.1.toList ++ ':' :: (e.2.text.toList ++ ['\n', 'F']) <+: e'.1.toList

theorem Overlaps.cons (h : Overlaps es es') : Overlaps (e :: es) (e' :: es') := by
  obtain ⟨a, ha, b, hb, hpre⟩ := h
  exact ⟨a, List.mem_cons_of_mem _ ha, b, List.mem_cons_of_mem _ hb, hpre⟩

theorem IsHex.notMem (h : d.IsHex) : ':' ∉ d.text.toList := fun hmem =>
  absurd (h.2 _ hmem) (by decide)

theorem spelled_eq_nil_or (es : List (String × Digest)) :
    spelled es = [] ∨ ∃ rest, spelled es = 'F' :: rest := by
  cases es with
  | nil => exact .inl rfl
  | cons e es => exact .inr ⟨_, spelled_cons e.1 e.2 es⟩

theorem exists_eq_append_of_notMem {sep : Char} {front rest before after : List Char}
    (h : front ++ rest = before ++ sep :: after) (hsep : sep ∉ front) :
    ∃ more, before = front ++ more ∧ rest = more ++ sep :: after := by
  rcases List.append_eq_append_iff.1 h with ⟨more, hbefore, hrest⟩ | ⟨more, hfront, hmore⟩
  · exact ⟨more, hbefore, hrest⟩
  · cases more with
    | nil => exact ⟨[], by simpa using hfront.symm, hmore.symm⟩
    | cons c more =>
      obtain ⟨rfl, -⟩ := List.cons.inj hmore
      exact absurd (by simp [hfront]) hsep

/-- Where the lines of two entries begin with the shorter of the names, the entries and what follows
them are the same, or the longer name takes in the line of the other and the mark behind it. -/
theorem eq_or_prefix_of_spelled (hd : d.IsHex) (hd' : d'.IsHex)
    (h : spelled ((name, d) :: es) = spelled ((name', d') :: es'))
    (hname : name.toList <+: name'.toList) :
    ((name, d) = (name', d') ∧ spelled es = spelled es') ∨
      name.toList ++ ':' :: (d.text.toList ++ ['\n', 'F']) <+: name'.toList := by
  obtain ⟨more, hmore⟩ := hname
  rw [spelled_cons, spelled_cons, List.cons_inj_right, List.cons_inj_right, ← hmore,
    List.append_assoc, List.append_cancel_left_eq] at h
  cases more with
  | nil =>
    obtain ⟨htext, hrest⟩ := List.append_inj (List.cons.inj h).2 (hd.1.trans hd'.1.symm)
    rw [List.append_nil, String.toList_inj] at hmore
    exact .inl ⟨Prod.ext hmore (congrArg Digest.mk (String.toList_inj.1 htext)),
      (List.cons.inj hrest).2⟩
  | cons c more =>
    obtain ⟨rfl, htail⟩ := List.cons.inj h
    -- no separator stands in a digest, so the longer name goes on behind the line feed
    obtain ⟨more, rfl, hrest⟩ := exists_eq_append_of_notMem htail hd.notMem
    cases more with
    | nil => exact absurd (List.cons.inj hrest).1 (by decide)
    | cons c more =>
      obtain ⟨rfl, hlines⟩ := List.cons.inj hrest
      rcases spelled_eq_nil_or es with hnil | ⟨rest, hmark⟩
      · simp [hnil] at hlines
      · rw [hmark] at hlines
        cases more with
        | nil => exact absurd (List.cons.inj hlines).1 (by decide)
        | cons c more =>
          obtain ⟨rfl, -⟩ := List.cons.inj hlines
          exact .inr ⟨more, by simp [← hmore]⟩

/-- Entries are settled by their lines, unless a name takes in a line. -/
theorem eq_or_overlaps_of_spelled (hhex : ∀ e ∈ es, e.2.IsHex) (hhex' : ∀ e ∈ es', e.2.IsHex)
    (h : spelled es = spelled es') : es = es' ∨ Overlaps es es' ∨ Overlaps es' es := by
  induction es generalizing es' with
  | nil =>
    cases es' with
    | nil => exact .inl rfl
    | cons e' es' => cases h.trans (spelled_cons e'.1 e'.2 es')
  | cons e es ih =>
    cases es' with
    | nil => cases h.symm.trans (spelled_cons e.1 e.2 es)
    | cons e' es' =>
      obtain ⟨hd, hes⟩ := List.forall_mem_cons.1 hhex
      obtain ⟨hd', hes'⟩ := List.forall_mem_cons.1 hhex'
      have hlater : e = e' → spelled es = spelled es' → e :: es = e' :: es' ∨
          Overlaps (e :: es) (e' :: es') ∨ Overlaps (e' :: es') (e :: es) := by
        rintro rfl hrest
        rcases ih hes hes' hrest with rfl | hover | hover
        · exact .inl rfl
        · exact .inr (.inl hover.cons)
        · exact .inr (.inr hover.cons)
      -- one of the two names begins with the other
      have hnames : e.1.toList <+: e'.1.toList ∨ e'.1.toList <+: e.1.toList := by
        have hchars := h
        rw [spelled_cons, spelled_cons, List.cons_inj_right, List.cons_inj_right] at hchars
        exact List.prefix_or_prefix_of_prefix ⟨_, hchars⟩ (List.prefix_append _ _)
      rcases hnames with hname | hname
      · rcases eq_or_prefix_of_spelled hd hd' h hname with ⟨he, hrest⟩ | hpre
        · exact hlater he hrest
        · exact .inr (.inl ⟨e, List.mem_cons_self, e', List.mem_cons_self, hpre⟩)
      · rcases eq_or_prefix_of_spelled hd' hd h.symm hname with ⟨he, hrest⟩ | hpre
        · exact hlater he.symm hrest.symm
        · exact .inr (.inr ⟨e', List.mem_cons_self, e, List.mem_cons_self, hpre⟩)

/-! ### Files -/

/-- What is hashed for the digest of some files: their contents and their lines. -/
def hashed (files : Named ByteArray) : Set ByteArray :=
  {bytes | (∃ name : String, files[name]? = some bytes) ∨ bytes = fileLines files}

theorem isHex_of_mem_entries (he : e ∈ entries files) : e.2.IsHex := by
  obtain ⟨content, -, hd⟩ := mem_entries.1 he
  rw [← hd]
  exact isHex_ofBytes content

/-- Files are settled by their names and the digests of their contents. -/
theorem eq_of_entries (hinj : Set.InjOn ofBytes (hashed files ∪ hashed files'))
    (h : entries files = entries files') : files = files' := by
  have hsame : ∀ {files files' : Named ByteArray} {name : String} {content : ByteArray},
      Set.InjOn ofBytes (hashed files ∪ hashed files') → entries files = entries files' →
        files[name]? = some content → files'[name]? = some content := by
    intro files files' name content hinj h hcontent
    have hentry := mem_entries.2 ⟨content, hcontent, rfl⟩
    rw [h] at hentry
    obtain ⟨content', hcontent', hdigest⟩ := mem_entries.1 hentry
    rwa [← hinj (.inr (.inl ⟨name, hcontent'⟩)) (.inl (.inl ⟨name, hcontent⟩)) hdigest]
  exact Named.ext fun name content =>
    ⟨hsame hinj h, hsame (Set.union_comm _ _ ▸ hinj) h.symm⟩

theorem Overlaps.exists_lineFeed (h : Overlaps es (entries files)) :
    ∃ name ∈ files, '\n' ∈ name.toList := by
  obtain ⟨e, -, ⟨name, d⟩, hentry, hpre⟩ := h
  obtain ⟨content, hcontent, -⟩ := mem_entries.1 hentry
  exact ⟨name, Named.mem_of_getElem? hcontent, hpre.subset (by simp)⟩

/-! ### Names that take in a line -/

/-- What stands between the names of two files in their lines. -/
def mark (d : Digest) : String := ":" ++ d.text ++ "\nF:"

theorem spelled_merge (first second : String) (d d' : Digest) (es : List (String × Digest)) :
    spelled ((first, d) :: (second, d') :: es) =
      spelled ((first ++ mark d ++ second, d') :: es) := by
  simp [spelled, mark]

/-- Two files that follow each other have the line of one file, whose name takes in the line of the
first. -/
theorem fileLines_merged (before after : List (String × ByteArray)) {first second : String}
    {content content' : ByteArray}
    (h : files.toList = before ++ (first, content) :: (second, content') :: after)
    (h' : files'.toList =
      before ++ (first ++ mark (ofBytes content) ++ second, content') :: after) :
    fileLines files = fileLines files' := by
  rw [fileLines_eq, fileLines_eq, entries, entries, h, h', List.map_append, List.map_append,
    List.map_cons, List.map_cons, List.map_cons, spelled_append, spelled_merge, ← spelled_append]

theorem ofFiles_renamed {content : ByteArray} {front back between : String}
    (hmark : mark (ofBytes content) = between)
    (h : files.toList = [(front ++ between ++ back ++ between ++ front, content),
      (back ++ between ++ front, content)])
    (h' : files'.toList = [(front ++ between ++ back, content),
      (front ++ between ++ back ++ between ++ front, content)]) :
    ofFiles files = ofFiles files' := by
  subst hmark
  rw [ofFiles, ofFiles, fileLines_eq, fileLines_eq, entries, entries, h, h']
  simp only [List.map_cons, List.map_nil, spelled_merge, String.append_assoc]

/-! ### Files and their digest -/

/-- Files that have one digest are the same, or a name of one set takes in the line of a file of the
other; where all names are on one line they are the same. -/
theorem eq_or_overlaps_of_ofFiles (hinj : Set.InjOn ofBytes (hashed files ∪ hashed files'))
    (h : ofFiles files = ofFiles files') :
    (files = files' ∨ Overlaps (entries files) (entries files') ∨
      Overlaps (entries files') (entries files)) ∧
    ((∀ name ∈ files, '\n' ∉ name.toList) → (∀ name ∈ files', '\n' ∉ name.toList) →
      files = files') := by
  have hspelled : spelled (entries files) = spelled (entries files') := by
    have hlines := hinj (.inl (.inr rfl)) (.inr (.inr rfl)) h
    rw [fileLines_eq, fileLines_eq, String.toByteArray_inj] at hlines
    exact String.ofList_injective hlines
  have hcases : files = files' ∨ Overlaps (entries files) (entries files') ∨
      Overlaps (entries files') (entries files) :=
    (eq_or_overlaps_of_spelled (fun _ => isHex_of_mem_entries) (fun _ => isHex_of_mem_entries)
      hspelled).imp_left (eq_of_entries hinj)
  refine ⟨hcases, fun hnames hnames' => hcases.resolve_right ?_⟩
  rintro (hover | hover)
  · obtain ⟨name, hmem, hfeed⟩ := hover.exists_lineFeed
    exact hnames' name hmem hfeed
  · obtain ⟨name, hmem, hfeed⟩ := hover.exists_lineFeed
    exact hnames name hmem hfeed

/-- The content of some files. -/
def clause : ByteArray := "package p\n".toByteArray

/-- Two files with the same content. -/
def twoFiles : Named ByteArray := .ofList [("a.go", clause), ("b.go", clause)] compare

/-- The same files, listed the other way round. -/
def listedBack : Named ByteArray := .ofList [("b.go", clause), ("a.go", clause)] compare

/-- The name that takes in the line of the first. -/
def mergedName : String := "a.go" ++ mark (ofBytes clause) ++ "b.go"

/-- A single file. -/
def mergedFile : Named ByteArray := .ofList [(mergedName, clause)] compare

theorem toList_twoFiles : twoFiles.toList = [("a.go", clause), ("b.go", clause)] := by
  decide +kernel

theorem toList_listedBack : listedBack.toList = [("a.go", clause), ("b.go", clause)] := by
  decide +kernel

theorem toList_mergedFile : mergedFile.toList = [(mergedName, clause)] := rfl

theorem fileLines_listedBack : fileLines listedBack = fileLines twoFiles := by
  rw [fileLines_eq, fileLines_eq, entries, entries, toList_listedBack, toList_twoFiles]

theorem fileLines_mergedFile : fileLines mergedFile = fileLines twoFiles :=
  (fileLines_merged [] [] toList_twoFiles toList_mergedFile).symm

theorem twoFiles_ne_mergedFile : twoFiles ≠ mergedFile := by
  intro h
  have hlength := congrArg (·.toList.length) h
  simp only [toList_twoFiles, toList_mergedFile] at hlength
  cases hlength

theorem ofBytes_clause_ne : ofBytes clause ≠ ofBytes (fileLines twoFiles) := by
  have hlines : fileLines twoFiles = (String.ofList (spelled
      [("a.go", ofBytes clause), ("b.go", ofBytes clause)])).toByteArray := by
    rw [fileLines_eq, entries, toList_twoFiles]
    rfl
  rw [hlines]
  decide +kernel

/-- Of files that have the one content and these lines, nothing else is hashed. -/
theorem hashed_subset (hfiles : ∀ file ∈ files.toList, file.2 = clause)
    (hlines : fileLines files = fileLines twoFiles) :
    hashed files ⊆ {clause, fileLines twoFiles} := by
  rintro bytes (⟨name, hname⟩ | rfl)
  · exact .inl (hfiles _ (Std.ExtTreeMap.mem_toList_iff_getElem?_eq_some.2 hname))
  · exact .inr hlines

theorem injOn_hashed : Set.InjOn ofBytes {clause, fileLines twoFiles} := by
  rintro bytes (rfl | rfl) bytes' (rfl | rfl) h
  · rfl
  · exact absurd h ofBytes_clause_ne
  · exact absurd h.symm ofBytes_clause_ne
  · rfl

theorem hashed_twoFiles : hashed twoFiles ⊆ {clause, fileLines twoFiles} :=
  hashed_subset (by simp [toList_twoFiles]) rfl

theorem hashed_mergedFile : hashed mergedFile ⊆ {clause, fileLines twoFiles} :=
  hashed_subset (by simp [toList_mergedFile]) fileLines_mergedFile

/-- The lines of two files do not tell them from a single file with a long name, but they do not
depend on how the files are listed. -/
theorem overlaps_twoFiles_mergedFile :
    ofFiles twoFiles = ofFiles mergedFile ∧
      (Overlaps (entries twoFiles) (entries mergedFile) ∨
        Overlaps (entries mergedFile) (entries twoFiles)) ∧ listedBack = twoFiles := by
  have hlisted : hashed listedBack ⊆ {clause, fileLines twoFiles} :=
    hashed_subset (by simp [toList_listedBack]) fileLines_listedBack
  have hmerged : ofFiles twoFiles = ofFiles mergedFile := congrArg ofBytes fileLines_mergedFile.symm
  have hnames : ∀ files : Named ByteArray, files.toList = [("a.go", clause), ("b.go", clause)] →
      ∀ name ∈ files, '\n' ∉ name.toList := by
    intro files hfiles name hmem
    obtain ⟨content, hcontent⟩ := Named.mem_iff.1 hmem
    have hentry := Std.ExtTreeMap.mem_toList_iff_getElem?_eq_some.2 hcontent
    rw [hfiles] at hentry
    rcases List.mem_cons.1 hentry with he | hentry
    · cases he
      decide
    · cases List.mem_singleton.1 hentry
      decide
  refine ⟨hmerged, ?_, ?_⟩
  · exact (eq_or_overlaps_of_ofFiles
      (injOn_hashed.mono (Set.union_subset hashed_twoFiles hashed_mergedFile))
      hmerged).1.resolve_left twoFiles_ne_mergedFile
  · exact (eq_or_overlaps_of_ofFiles (injOn_hashed.mono (Set.union_subset hlisted hashed_twoFiles))
      (congrArg ofBytes fileLines_listedBack)).2 (hnames _ toList_listedBack)
        (hnames _ toList_twoFiles)

/-! ### Packages -/

theorem isSourceFile_names : ∀ name ∈ ["a.go", "b.go", mergedName],
    Path.IsName name ∧ isSourceFile name "go" = true := by
  decide +kernel

theorem exists_load_of_toList (files : Named ByteArray) (hne : files.toList ≠ [])
    (hnames : ∀ file ∈ files.toList, file.1 ∈ ["a.go", "b.go", mergedName]) :
    ∃ (t : MemoryTree) (package : Package), t.IsClosed ∧
      Package.load t.view "go" "p" = .ok package ∧ package.files = files := by
  refine (Package.exists_load_iff (by decide)).2 ⟨?_, fun name hmem => ?_⟩
  · rintro rfl
    exact hne rfl
  · obtain ⟨content, hcontent⟩ := Named.mem_iff.1 hmem
    exact isSourceFile_names name
      (hnames _ (Std.ExtTreeMap.mem_toList_iff_getElem?_eq_some.2 hcontent))

/-- The digest does not identify the files of a package, though no two of the texts that are hashed
share one. -/
theorem not_files_eq_of_ofFiles :
    ¬ ∀ (t t' : MemoryTree) (ext path : String) (package package' : Package),
      t.IsClosed → t'.IsClosed → Package.load t.view ext path = .ok package →
        Package.load t'.view ext path = .ok package' →
          Set.InjOn ofBytes (hashed package.files ∪ hashed package'.files) →
            ofFiles package.files = ofFiles package'.files → package.files = package'.files := by
  intro hclaim
  obtain ⟨t, package, ht, hpackage, hfiles⟩ :=
    exists_load_of_toList twoFiles (by simp [toList_twoFiles]) (by simp [toList_twoFiles])
  obtain ⟨t', package', ht', hpackage', hfiles'⟩ :=
    exists_load_of_toList mergedFile (by simp [toList_mergedFile]) (by simp [toList_mergedFile])
  have hsame := hclaim t t' "go" "p" package package' ht ht' hpackage hpackage'
  rw [hfiles, hfiles'] at hsame
  have hinj : Set.InjOn ofBytes (hashed twoFiles ∪ hashed mergedFile) :=
    injOn_hashed.mono (Set.union_subset hashed_twoFiles hashed_mergedFile)
  exact twoFiles_ne_mergedFile (hsame hinj (congrArg ofBytes fileLines_mergedFile.symm))

end Digest

end Playground
