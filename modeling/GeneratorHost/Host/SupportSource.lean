/-! The source of the support module that a host and every unit made from it share. -/
namespace GeneratorHost

/-- The lines of the support module, each ended by a line feed. -/
def supportLines : List String :=
  [
    "//! selfgen runtime support module.",
    "//!",
    "//! This file is compiled verbatim into the host crate (as `crate::selfgen_rt`)",
    "//! and into every generator unit built from it. Two copies of the same text",
    "//! give two distinct Rust types, so everything that crosses the unit boundary",
    "//! is `#[repr(C)]` and is matched by layout and by exported symbol name, never",
    "//! by type identity.",
    "//!",
    "//! Generator authors only need [`generator`], [`SourceGenerator`],",
    "//! [`GeneratorContext`], [`Declaration`] and [`GeneratorResult`]:",
    "//!",
    "//! ```ignore",
    "//! use crate::selfgen_rt::\x7bgenerator, Declaration, GeneratorContext, GeneratorResult, SourceGenerator\x7d;",
    "//!",
    "//! #[generator]",
    "//! #[derive(Default)]",
    "//! pub struct Greeting;",
    "//!",
    "//! impl SourceGenerator for Greeting \x7b",
    "//!     fn on_execute(&mut self, context: &mut GeneratorContext<'_>, _nodes: &[Declaration]) -> GeneratorResult \x7b",
    "//!         context.add_source(\"Greeting.g.rs\", \"pub struct Greeting \x7b\x7d\");",
    "//!         Ok(())",
    "//!     \x7d",
    "//! \x7d",
    "//! ```",
    "",
    "#![allow(dead_code)]",
    "",
    "use std::any::Any;",
    "use std::backtrace::Backtrace;",
    "use std::ffi::c_void;",
    "use std::panic::\x7bself, AssertUnwindSafe\x7d;",
    "use std::ptr;",
    "use std::slice;",
    "use std::sync::\x7bMutex, Once\x7d;",
    "",
    "pub use selfgen_macros::generator;",
    "",
    "/// Bumped whenever a boundary type or entry signature changes.",
    "pub const RUNTIME_VERSION: u32 = 1;",
    "",
    "pub type GeneratorResult = Result<(), Box<dyn std::error::Error + Send + Sync>>;",
    "",
    "/// Capability trait every `#[generator]` type implements.",
    "///",
    "/// The host never calls this through a trait object. It reaches",
    "/// `on_execute` through the unit's exported execute symbol.",
    "pub trait SourceGenerator \x7b",
    "    fn on_execute(&mut self, context: &mut GeneratorContext<'_>, nodes: &[Declaration]) -> GeneratorResult;",
    "\x7d",
    "",
    "/// Source span: 1-based lines, 0-based character columns.",
    "#[repr(C)]",
    "#[derive(Debug, Clone, Copy, Default, PartialEq, Eq, Hash)]",
    "pub struct Span \x7b",
    "    pub start_line: u32,",
    "    pub start_column: u32,",
    "    pub end_line: u32,",
    "    pub end_column: u32,",
    "\x7d",
    "",
    "/// Resolved description of a declaration.",
    "#[derive(Debug, Clone, PartialEq, Eq)]",
    "pub struct Symbol \x7b",
    "    pub kind: String,",
    "    pub name: String,",
    "    pub fully_qualified_name: String,",
    "    pub containing_namespace: String,",
    "    /// Canonical paths of the attributes on the declaration.",
    "    pub attributes: Vec<String>,",
    "    /// Canonical paths of every trait the declaration implements.",
    "    pub interfaces: Vec<String>,",
    "\x7d",
    "",
    "impl Symbol \x7b",
    "    pub fn has_attribute(&self, path: &str) -> bool \x7b",
    "        self.attributes.iter().any(|attribute| attribute == path)",
    "    \x7d",
    "",
    "    pub fn implements(&self, path: &str) -> bool \x7b",
    "        self.interfaces.iter().any(|interface| interface == path)",
    "    \x7d",
    "\x7d",
    "",
    "/// One node of the host's declaration index, as seen by generator code.",
    "#[derive(Debug, Clone, PartialEq, Eq)]",
    "pub struct Declaration \x7b",
    "    pub index: usize,",
    "    pub kind: String,",
    "    pub file: String,",
    "    pub text: String,",
    "    pub span: Span,",
    "    pub parent: Option<usize>,",
    "    pub symbol: Option<Symbol>,",
    "\x7d",
    "",
    "impl Declaration \x7b",
    "    pub fn name(&self) -> Option<&str> \x7b",
    "        self.symbol.as_ref().map(|symbol| symbol.name.as_str())",
    "    \x7d",
    "",
    "    pub fn is_kind(&self, kind: &str) -> bool \x7b",
    "        self.kind == kind",
    "    \x7d",
    "\x7d",
    "",
    "/// Output sink handed to [`SourceGenerator::on_execute`].",
    "pub struct GeneratorContext<'a> \x7b",
    "    sink: &'a RawSink,",
    "    added: usize,",
    "\x7d",
    "",
    "impl<'a> GeneratorContext<'a> \x7b",
    "    /// # Safety",
    "    ///",
    "    /// The callbacks in `sink` must be valid to call with `sink.state` for `'a`.",
    "    pub unsafe fn from_raw(sink: &'a RawSink) -> Self \x7b",
    "        GeneratorContext \x7b sink, added: 0 \x7d",
    "    \x7d",
    "",
    "    /// Add a generated source file. Panics if the host rejects the name,",
    "    /// which happens when it is already taken in this pass or reserved for",
    "    /// the pass itself.",
    "    pub fn add_source(&mut self, name: &str, text: &str) \x7b",
    "        let accepted = unsafe \x7b (self.sink.add_source)(self.sink.state, RawStr::new(name), RawStr::new(text)) \x7d;",
    "        if !accepted \x7b",
    "            panic!(\"generated source `\x7b\x7d` was rejected by the host (duplicate or reserved name)\", name);",
    "        \x7d",
    "        self.added += 1;",
    "    \x7d",
    "",
    "    /// Send a note to the host. Notes are logged and carried back in the",
    "    /// invocation report; they never become diagnostics.",
    "    pub fn report(&mut self, message: &str) \x7b",
    "        unsafe \x7b (self.sink.report)(self.sink.state, RawStr::new(message)) \x7d",
    "    \x7d",
    "",
    "    pub fn sources_added(&self) -> usize \x7b",
    "        self.added",
    "    \x7d",
    "\x7d",
    "",
    "// Boundary types.",
    "",
    "#[repr(C)]",
    "#[derive(Debug, Clone, Copy)]",
    "pub struct RawStr \x7b",
    "    pub ptr: *const u8,",
    "    pub len: usize,",
    "\x7d",
    "",
    "impl RawStr \x7b",
    "    pub const EMPTY: RawStr = RawStr \x7b ptr: ptr::null(), len: 0 \x7d;",
    "",
    "    pub fn new(text: &str) -> Self \x7b",
    "        RawStr \x7b ptr: text.as_ptr(), len: text.len() \x7d",
    "    \x7d",
    "",
    "    /// # Safety",
    "    ///",
    "    /// `ptr` must be null or point at `len` readable bytes.",
    "    pub unsafe fn to_owned_string(self) -> String \x7b",
    "        if self.ptr.is_null() || self.len == 0 \x7b",
    "            return String::new();",
    "        \x7d",
    "        let bytes = unsafe \x7b slice::from_raw_parts(self.ptr, self.len) \x7d;",
    "        String::from_utf8_lossy(bytes).into_owned()",
    "    \x7d",
    "\x7d",
    "",
    "#[repr(C)]",
    "#[derive(Debug)]",
    "pub struct RawSymbol \x7b",
    "    pub kind: RawStr,",
    "    pub name: RawStr,",
    "    pub fully_qualified_name: RawStr,",
    "    pub containing_namespace: RawStr,",
    "    pub attributes: *const RawStr,",
    "    pub attribute_count: usize,",
    "    pub interfaces: *const RawStr,",
    "    pub interface_count: usize,",
    "\x7d",
    "",
    "impl RawSymbol \x7b",
    "    /// # Safety",
    "    ///",
    "    /// Every pointer in `self` must be valid for its stated length.",
    "    pub unsafe fn to_symbol(&self) -> Symbol \x7b",
    "        unsafe \x7b",
    "            Symbol \x7b",
    "                kind: self.kind.to_owned_string(),",
    "                name: self.name.to_owned_string(),",
    "                fully_qualified_name: self.fully_qualified_name.to_owned_string(),",
    "                containing_namespace: self.containing_namespace.to_owned_string(),",
    "                attributes: raw_list(self.attributes, self.attribute_count),",
    "                interfaces: raw_list(self.interfaces, self.interface_count),",
    "            \x7d",
    "        \x7d",
    "    \x7d",
    "\x7d",
    "",
    "#[repr(C)]",
    "#[derive(Debug)]",
    "pub struct RawDeclaration \x7b",
    "    pub kind: RawStr,",
    "    pub file: RawStr,",
    "    pub text: RawStr,",
    "    pub span: Span,",
    "    /// Index of the parent declaration, or -1.",
    "    pub parent: isize,",
    "    /// Null when the declaration has no symbol.",
    "    pub symbol: *const RawSymbol,",
    "\x7d",
    "",
    "impl RawDeclaration \x7b",
    "    /// # Safety",
    "    ///",
    "    /// Every pointer in `self` must be valid for its stated length.",
    "    pub unsafe fn to_declaration(&self, index: usize) -> Declaration \x7b",
    "        unsafe \x7b",
    "            Declaration \x7b",
    "                index,",
    "                kind: self.kind.to_owned_string(),",
    "                file: self.file.to_owned_string(),",
    "                text: self.text.to_owned_string(),",
    "                span: self.span,",
    "                parent: if self.parent < 0 \x7b None \x7d else \x7b Some(self.parent as usize) \x7d,",
    "                symbol: if self.symbol.is_null() \x7b None \x7d else \x7b Some((*self.symbol).to_symbol()) \x7d,",
    "            \x7d",
    "        \x7d",
    "    \x7d",
    "\x7d",
    "",
    "/// # Safety",
    "///",
    "/// `nodes` must be null or point at `count` valid declarations.",
    "pub unsafe fn declarations_from_raw(nodes: *const RawDeclaration, count: usize) -> Vec<Declaration> \x7b",
    "    if nodes.is_null() || count == 0 \x7b",
    "        return Vec::new();",
    "    \x7d",
    "    let raw = unsafe \x7b slice::from_raw_parts(nodes, count) \x7d;",
    "    raw.iter()",
    "        .enumerate()",
    "        .map(|(index, node)| unsafe \x7b node.to_declaration(index) \x7d)",
    "        .collect()",
    "\x7d",
    "",
    "unsafe fn raw_list(items: *const RawStr, count: usize) -> Vec<String> \x7b",
    "    if items.is_null() || count == 0 \x7b",
    "        return Vec::new();",
    "    \x7d",
    "    let raw = unsafe \x7b slice::from_raw_parts(items, count) \x7d;",
    "    raw.iter().map(|item| unsafe \x7b item.to_owned_string() \x7d).collect()",
    "\x7d",
    "",
    "/// Panic or error details reported by a unit.",
    "#[repr(C)]",
    "#[derive(Debug, Clone, Copy)]",
    "pub struct RawFailure \x7b",
    "    pub type_name: RawStr,",
    "    pub message: RawStr,",
    "    pub location: RawStr,",
    "    pub backtrace: RawStr,",
    "\x7d",
    "",
    "pub type AddSourceFn = unsafe extern \"C\" fn(*mut c_void, RawStr, RawStr) -> bool;",
    "pub type ReportFn = unsafe extern \"C\" fn(*mut c_void, RawStr);",
    "pub type FailFn = unsafe extern \"C\" fn(*mut c_void, RawFailure);",
    "",
    "/// Host callbacks. `state` is opaque to the unit.",
    "#[repr(C)]",
    "pub struct RawSink \x7b",
    "    pub state: *mut c_void,",
    "    pub add_source: AddSourceFn,",
    "    pub report: ReportFn,",
    "    pub fail: FailFn,",
    "\x7d",
    "",
    "// Entry points.",
    "",
    "pub const STATUS_OK: i32 = 0;",
    "pub const STATUS_RETURNED_ERROR: i32 = 1;",
    "pub const STATUS_PANICKED: i32 = 2;",
    "pub const STATUS_NO_INSTANCE: i32 = 3;",
    "",
    "pub type ConstructEntry = unsafe extern \"C\" fn(*const RawSink) -> *mut c_void;",
    "pub type ExecuteEntry = unsafe extern \"C\" fn(*mut c_void, *const RawSink, *const RawDeclaration, usize) -> i32;",
    "pub type ReleaseEntry = unsafe extern \"C\" fn(*mut c_void);",
    "",
    "pub const CONSTRUCT_SYMBOL_PREFIX: &str = \"selfgen_construct__\";",
    "pub const EXECUTE_SYMBOL_PREFIX: &str = \"selfgen_on_execute__\";",
    "pub const RELEASE_SYMBOL_PREFIX: &str = \"selfgen_release__\";",
    "",
    "/// Exported symbol name of an entry point for a fully qualified type name.",
    "pub fn entry_symbol(prefix: &str, fully_qualified_name: &str) -> String \x7b",
    "    let mangled: String = fully_qualified_name",
    "        .replace(\"::\", \"__\")",
    "        .chars()",
    "        .map(|c| if c.is_ascii_alphanumeric() || c == '_' \x7b c \x7d else \x7b '_' \x7d)",
    "        .collect();",
    "    format!(\"\x7b\x7d\x7b\x7d\", prefix, mangled)",
    "\x7d",
    "",
    "/// Build one `T` through `Default`.",
    "///",
    "/// # Safety",
    "///",
    "/// `sink` must be null or valid for the duration of the call.",
    "pub unsafe fn construct_entry<T: SourceGenerator + Default>(sink: *const RawSink) -> *mut c_void \x7b",
    "    capture_panics();",
    "    match panic::catch_unwind(T::default) \x7b",
    "        Ok(instance) => Box::into_raw(Box::new(instance)) as *mut c_void,",
    "        Err(payload) => \x7b",
    "            unsafe \x7b report_panic(sink, payload) \x7d;",
    "            ptr::null_mut()",
    "        \x7d",
    "    \x7d",
    "\x7d",
    "",
    "/// Run `on_execute` on an instance made by [`construct_entry`].",
    "///",
    "/// # Safety",
    "///",
    "/// `instance` must come from `construct_entry::<T>`; `sink` and `nodes`",
    "/// must be valid for the duration of the call.",
    "pub unsafe fn execute_entry<T: SourceGenerator>(",
    "    instance: *mut c_void,",
    "    sink: *const RawSink,",
    "    nodes: *const RawDeclaration,",
    "    count: usize,",
    ") -> i32 \x7b",
    "    capture_panics();",
    "    if instance.is_null() || sink.is_null() \x7b",
    "        return STATUS_NO_INSTANCE;",
    "    \x7d",
    "    let generator = unsafe \x7b &mut *(instance as *mut T) \x7d;",
    "    let sink_ref = unsafe \x7b &*sink \x7d;",
    "",
    "    let outcome = panic::catch_unwind(AssertUnwindSafe(|| \x7b",
    "        let declarations = unsafe \x7b declarations_from_raw(nodes, count) \x7d;",
    "        let mut context = unsafe \x7b GeneratorContext::from_raw(sink_ref) \x7d;",
    "        generator.on_execute(&mut context, &declarations)",
    "    \x7d));",
    "",
    "    match outcome \x7b",
    "        Ok(Ok(())) => STATUS_OK,",
    "        Ok(Err(error)) => \x7b",
    "            unsafe \x7b fail(sink_ref, \"generator error\", &error.to_string(), \"\", \"\") \x7d;",
    "            STATUS_RETURNED_ERROR",
    "        \x7d",
    "        Err(payload) => \x7b",
    "            unsafe \x7b report_panic(sink, payload) \x7d;",
    "            STATUS_PANICKED",
    "        \x7d",
    "    \x7d",
    "\x7d",
    "",
    "/// # Safety",
    "///",
    "/// `instance` must be null or come from `construct_entry::<T>`, and must not",
    "/// be used afterwards.",
    "pub unsafe fn release_entry<T>(instance: *mut c_void) \x7b",
    "    if instance.is_null() \x7b",
    "        return;",
    "    \x7d",
    "    let _ = panic::catch_unwind(AssertUnwindSafe(|| drop(unsafe \x7b Box::from_raw(instance as *mut T) \x7d)));",
    "\x7d",
    "",
    "// Panic capture. Each unit links its own copy of std, so the hook installed",
    "// here only sees panics raised inside the unit.",
    "",
    "struct PanicSite \x7b",
    "    location: String,",
    "    backtrace: String,",
    "\x7d",
    "",
    "static LAST_PANIC: Mutex<Option<PanicSite>> = Mutex::new(None);",
    "static PANIC_HOOK: Once = Once::new();",
    "",
    "fn capture_panics() \x7b",
    "    PANIC_HOOK.call_once(|| \x7b",
    "        panic::set_hook(Box::new(|info| \x7b",
    "            let site = PanicSite \x7b",
    "                location: info.location().map(|location| location.to_string()).unwrap_or_default(),",
    "                backtrace: Backtrace::force_capture().to_string(),",
    "            \x7d;",
    "            if let Ok(mut slot) = LAST_PANIC.lock() \x7b",
    "                *slot = Some(site);",
    "            \x7d",
    "        \x7d));",
    "    \x7d);",
    "\x7d",
    "",
    "fn describe_payload(payload: &(dyn Any + Send)) -> (&'static str, String) \x7b",
    "    if let Some(message) = payload.downcast_ref::<&'static str>() \x7b",
    "        (\"&str\", (*message).to_string())",
    "    \x7d else if let Some(message) = payload.downcast_ref::<String>() \x7b",
    "        (\"alloc::string::String\", message.clone())",
    "    \x7d else \x7b",
    "        (\"Box<dyn Any + Send>\", String::from(\"panic payload is not a string\"))",
    "    \x7d",
    "\x7d",
    "",
    "unsafe fn report_panic(sink: *const RawSink, payload: Box<dyn Any + Send>) \x7b",
    "    let (type_name, message) = describe_payload(&*payload);",
    "    let site = LAST_PANIC.lock().ok().and_then(|mut slot| slot.take());",
    "    let (location, backtrace) = match site \x7b",
    "        Some(site) => (site.location, site.backtrace),",
    "        None => (String::new(), String::new()),",
    "    \x7d;",
    "    if sink.is_null() \x7b",
    "        return;",
    "    \x7d",
    "    unsafe \x7b fail(&*sink, type_name, &message, &location, &backtrace) \x7d",
    "\x7d",
    "",
    "unsafe fn fail(sink: &RawSink, type_name: &str, message: &str, location: &str, backtrace: &str) \x7b",
    "    let failure = RawFailure \x7b",
    "        type_name: RawStr::new(type_name),",
    "        message: RawStr::new(message),",
    "        location: RawStr::new(location),",
    "        backtrace: RawStr::new(backtrace),",
    "    \x7d;",
    "    unsafe \x7b (sink.fail)(sink.state, failure) \x7d",
    "\x7d"
  ]

/-- The source of the support module. -/
def supportSource : String := String.join (supportLines.map (· ++ "\n"))

end GeneratorHost
