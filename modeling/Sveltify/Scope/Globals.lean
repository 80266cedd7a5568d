namespace Sveltify.Scope

/-!
# Names that every module may use

* `globals`: the names that the language and the browser provide.
-/

/-- Names that are known without a declaration. -/
def globals : List String :=
  ["undefined", "NaN", "Infinity", "globalThis", "window", "document", "console", "Math", "JSON",
   "Date", "Array", "Object", "String", "Number", "Boolean", "Symbol", "BigInt", "Map", "Set",
   "WeakMap", "WeakSet", "Promise", "Proxy", "Reflect", "Function", "RegExp", "Error",
   "TypeError", "RangeError", "SyntaxError", "ReferenceError", "AggregateError", "parseInt",
   "parseFloat", "isNaN", "isFinite", "encodeURIComponent", "decodeURIComponent", "encodeURI",
   "decodeURI", "setTimeout", "clearTimeout", "setInterval", "clearInterval",
   "requestAnimationFrame", "cancelAnimationFrame", "requestIdleCallback", "cancelIdleCallback",
   "queueMicrotask", "structuredClone", "fetch", "localStorage", "sessionStorage", "navigator",
   "location", "history", "alert", "confirm", "prompt", "Intl", "URL", "URLSearchParams",
   "FormData", "Headers", "Request", "Response", "AbortController", "AbortSignal", "Event",
   "CustomEvent", "KeyboardEvent", "MouseEvent", "PointerEvent", "FocusEvent", "InputEvent",
   "SubmitEvent", "HTMLElement", "HTMLInputElement", "HTMLFormElement", "Element", "Node",
   "NodeList", "ResizeObserver", "IntersectionObserver", "MutationObserver", "performance",
   "crypto", "atob", "btoa", "Blob", "File", "FileReader", "TextEncoder", "TextDecoder",
   "WebSocket", "Worker", "EventSource", "XMLHttpRequest", "Notification", "DOMParser", "Image",
   "Audio", "matchMedia", "getComputedStyle", "scrollTo", "innerWidth", "innerHeight", "screen",
   "arguments", "process", "require", "module", "exports", "Buffer", "Uint8Array", "Int32Array",
   "Float32Array", "Float64Array", "ArrayBuffer", "DataView", "Atomics", "SharedArrayBuffer",
   "Iterator", "eval", "import"]

end Sveltify.Scope
